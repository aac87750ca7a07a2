import CircuitCompiler.Design.Parse
import CircuitCompiler.Proofs.TrackedComponent
import CircuitCompiler.Token.Lexer

/-!
# Chunks are components

A file can be read as a whole, component after component, or cut into chunks that are read each for
itself. Both see the same components. What ties the two ends together are the tokens that spell a
component: `Spells` holds of tokens from which one component is read, whatever comes behind them.

* `Design.parseFrom_ok`, `Design.parseFrom_of_spelled`: a file is read as a whole where its tokens are parts that
  spell components;
* `Chunk.parse_eq_ok_iff`: a chunk is read where its tokens spell a component;
* `Chunk.parts_of_chunks`, `Chunk.chunks_of_parts`: the chunks are the parts. A brace that a
  component opens it closes, so the next mark is the next component; and a fault stays in its chunk;
* `Chunk.split_agrees`: both together.
-/

namespace CircuitCompiler

open Chunk (Cut Ascend Behind marks between)

/-! ## Tokens that spell a component -/

/-- A reading at the start of a component. -/
def Reading.start (tokens : List Token) (stop : Stop) (last : Span) (source? : Option Bytes) :
    Reading := { tokens, stop, last, source? }

/-- From these tokens a component is read, whatever comes behind them. -/
def Spells (file : Nat) (source? : Option Bytes) (used : List Token) (c : Component) : Prop :=
  ∀ rest stop last, ∃ r,
    Parse.component file (.start (used ++ rest) stop last source?) = (.ok c, r) ∧
      r.tokens = rest ∧ r.stop = stop ∧ r.scope = .general ∧ r.source? = source?

/-- What is read of a reading at the start of a component spells it. -/
theorem spells_of_component {file : Nat} {source? : Option Bytes} {tokens : List Token}
    {stop : Stop} {last : Span} {c : Component} {r : Reading}
    (h : Parse.component file (.start tokens stop last source?) = (.ok c, r)) :
    ∃ used, tokens = used ++ r.tokens ∧ r.stop = stop ∧ r.scope = .general ∧
      r.source? = source? ∧ Parse.Framed c.name used ∧ Spells file source? used c := by
  obtain ⟨used, split, hstop, scope, source, framed, hfile, moved⟩ :=
    Parse.component_moved (.same source?) file rfl h
  refine ⟨used, split, hstop, scope, source, framed, fun rest stop' last' => ?_⟩
  -- read once more in the same place, with other tokens behind it
  have again := moved rest stop' last'
  rw [Relocation.map_eq_self (Relocation.token_same source?), ← hfile,
    Relocation.component_same, hfile] at again
  exact ⟨(Relocation.same source?).reading r rest stop', again, rfl, rfl, scope, rfl⟩

theorem Spells.framed {file : Nat} {source? : Option Bytes} {used : List Token} {c : Component}
    (h : Spells file source? used c) : Parse.Framed c.name used := by
  obtain ⟨r, hr, tokens, -⟩ := h [] (.eof .zero) .zero
  obtain ⟨used', split, -, -, -, framed, -⟩ := spells_of_component hr
  rw [tokens, List.append_nil, List.append_nil] at split
  exact split ▸ framed

/-- Parts of tokens that spell components, one each. -/
abbrev Spelled (file : Nat) (source? : Option Bytes) (parts : List (List Token))
    (cs : List Component) : Prop := List.Forall₂ (Spells file source?) parts cs

/-! ## Reading the whole file -/

theorem Reading.fresh_eq {r : Reading} (scope : r.scope = .general) :
    ∃ last, r.fresh = .start r.tokens r.stop last r.source? := by
  refine ⟨.point r.current.span.file r.current.span.stop, ?_⟩
  obtain ⟨tokens, stop, _, last, widths, names, source?⟩ := r
  cases scope
  rfl

/-- A reading is at the end where no token is left and the source ends. -/
theorem Reading.current_eof {r : Reading} (kinds : ∀ t ∈ r.tokens, t.kind ≠ .eof)
    (h : r.current.kind = .eof) : r.tokens = [] ∧ ∃ span, r.stop = .eof span := by
  cases ht : r.tokens with
  | cons t rest =>
    rw [current_of_tokens ht] at h
    exact absurd (Kind.eq_of_inScope_eq h rfl) (kinds t (by simp [ht]))
  | nil =>
    rw [current, ht] at h
    cases hs : r.stop with
    | eof span => exact ⟨rfl, span, rfl⟩
    | fault e =>
      rw [hs] at h
      cases h

namespace Design

theorem ext_components {d d' : Design} (h : d.components = d'.components) : d = d' := by
  cases d
  cases d'
  cases h
  rfl

theorem components_of_add? {d d' : Design} {c : Component} (h : d.add? c = some d') :
    d'.components = d.components ++ [c] := by
  unfold add? at h
  split at h
  · cases h
  · cases h
    rfl

/-- Where components are read up to the end of the file, its tokens are parts that spell them. -/
theorem parseFrom_ok {file fuel : Nat} {r : Reading} {d d' : Design}
    (h : parseFrom file fuel r d = .ok d') (scope : r.scope = .general)
    (kinds : ∀ t ∈ r.tokens, t.kind ≠ .eof) :
    ∃ parts cs span, r.tokens = parts.flatten ∧ r.stop = .eof span ∧
      Spelled file r.source? parts cs ∧ d'.components = d.components ++ cs := by
  induction fuel generalizing r d with
  | zero => cases h
  | succ fuel ih =>
    rw [parseFrom] at h
    split at h
    · next ended =>
      cases h
      obtain ⟨none, span, hstop⟩ := Reading.current_eof kinds ended
      exact ⟨[], [], span, none, hstop, .nil, (List.append_nil _).symm⟩
    · obtain ⟨last, fresh⟩ := Reading.fresh_eq scope
      rw [fresh] at h
      split at h
      · cases h
      · next c r' hc =>
        split at h
        · next d₁ added =>
          obtain ⟨used, split, hstop, scope', source, -, spells⟩ := spells_of_component hc
          obtain ⟨parts, cs, span, tokens, ends, spelled, comps⟩ := ih h scope' fun t ht =>
            kinds t (by rw [split]; exact List.mem_append_right _ ht)
          refine ⟨used :: parts, c :: cs, span, ?_, hstop ▸ ends, ?_, ?_⟩
          · rw [split, tokens, List.flatten_cons]
          · exact .cons spells (source ▸ spelled)
          · rw [comps, components_of_add? added, List.append_assoc]
            rfl
        · cases h

theorem add?_of_nodup {d : Design} {c : Component} {cs : List Component}
    (distinct : ((d.components ++ c :: cs).map (·.name)).Nodup) :
    ∃ d', d.add? c = some d' ∧ d'.components = d.components ++ [c] := by
  have free : ¬d.has c.name = true := by
    rw [has_eq_true_iff]
    intro taken
    rw [List.map_append, List.map_cons] at distinct
    exact (List.nodup_append.mp distinct).2.2 _ taken _ List.mem_cons_self rfl
  exact ⟨_, dif_neg free, rfl⟩

/-- Parts that spell components with distinct names are read as these components. -/
theorem parseFrom_of_spelled {file fuel : Nat} {r : Reading} {d d' : Design}
    {parts : List (List Token)} {cs : List Component} {span : Span}
    (tokens : r.tokens = parts.flatten) (ends : r.stop = .eof span)
    (scope : r.scope = .general) (spelled : Spelled file r.source? parts cs)
    (comps : d'.components = d.components ++ cs) (enough : parts.length < fuel) :
    parseFrom file fuel r d = .ok d' := by
  -- every part has a token at least, so the fuel of the file lasts for its parts
  induction fuel generalizing r d parts cs with
  | zero => omega
  | succ fuel ih =>
    rw [parseFrom]
    cases spelled with
    | nil =>
      have ended : r.current.kind = .eof := by
        rw [Reading.current, tokens, ends]
        rfl
      rw [if_pos ended, ext_components (comps.trans (List.append_nil _)).symm]
    | @cons used c parts cs spells spelled =>
      obtain ⟨word, title, opening, body, close, rfl, wordKind, -⟩ := spells.framed
      have more : r.current.kind ≠ .eof := by
        rw [Reading.current_of_tokens (by rw [tokens]; rfl)]
        intro h
        rw [Kind.eq_of_inScope_eq h rfl] at wordKind
        cases wordKind
      obtain ⟨last, fresh⟩ := Reading.fresh_eq scope
      obtain ⟨r', hc, tokens', ends', scope', source'⟩ := spells parts.flatten r.stop last
      obtain ⟨d₁, added, comps₁⟩ := add?_of_nodup (comps ▸ d'.distinct)
      rw [if_neg more, fresh, tokens, List.flatten_cons, hc]
      simp only [added]
      refine ih tokens' (ends'.trans ends) scope' (source'.symm ▸ spelled) ?_
        (Nat.lt_of_succ_lt_succ enough)
      rw [comps₁, comps, List.append_assoc]
      rfl

end Design

/-- The text that raw blocks keep theirs from, if they do. -/
def SourceFile.kept? (f : SourceFile) (keepText : Bool) : Option Bytes :=
  if keepText then some f.content else none

theorem Stream.ofCursor_ofFile (f : SourceFile) :
    Stream.ofCursor (.ofFile f) = Stream.scan f.id 0 f.content := by
  simp [Stream.ofCursor, Cursor.ofFile, Cursor.rest, Bytes.slice]

theorem Spelled.length_le {file : Nat} {source? : Option Bytes} {parts : List (List Token)}
    {cs : List Component} (h : Spelled file source? parts cs) :
    parts.length ≤ parts.flatten.length := by
  induction h with
  | nil => exact Nat.le_refl _
  | cons spells _ ih =>
    obtain ⟨word, title, opening, body, close, rfl, -⟩ := spells.framed
    simp only [List.length_cons, List.flatten_cons, List.cons_append]
    exact Nat.succ_le_succ (Nat.le_trans ih (by simp; omega))

/-- A file is read as a design where its tokens are parts that spell the components. -/
theorem Design.parse_eq_ok_iff (f : SourceFile) (keepText : Bool) (d : Design) :
    Design.parse f keepText = .ok d ↔ ∃ parts span,
      Stream.scan f.id 0 f.content = ⟨parts.flatten, .eof span⟩ ∧
        Spelled f.id (f.kept? keepText) parts d.components := by
  simp only [Design.parse, Stream.ofCursor_ofFile]
  constructor
  · intro h
    obtain ⟨parts, cs, span, tokens, ends, spelled, comps⟩ := parseFrom_ok h rfl fun t ht =>
      (Stream.scan_token ht).2.2.1
    obtain rfl : d.components = cs := comps
    refine ⟨parts, span, ?_, spelled⟩
    rw [← tokens, ← ends]
    rfl
  · rintro ⟨parts, span, scanned, spelled⟩
    rw [scanned]
    exact parseFrom_of_spelled rfl rfl rfl spelled rfl (Nat.lt_succ_of_le spelled.length_le)

/-! ## Reading a chunk -/

/-- The bytes of a range do not depend on how it is cut down to what the file has. -/
theorem Stream.ofCursor_ofRange (f : SourceFile) (start stop : Nat) :
    Stream.ofCursor (.ofRange f start stop) =
      Stream.scan f.id (Cursor.ofRange f start stop).off (f.content.slice start stop) := by
  have bytes : (Cursor.ofRange f start stop).rest = f.content.slice start stop := by
    simp only [Cursor.ofRange, Cursor.rest, Bytes.slice]
    rw [← List.take_eq_take_min]
    rcases Nat.le_total start (min stop f.content.length) with inside | outside
    · rw [Nat.min_eq_left inside]
    · rw [Nat.min_eq_right outside]
      have short : (f.content.take stop).length = min stop f.content.length := List.length_take
      rw [List.drop_eq_nil_of_le (Nat.le_of_eq short),
        List.drop_eq_nil_of_le (Nat.le_trans (Nat.le_of_eq short) outside)]
  rw [Stream.ofCursor, bytes]
  rfl

theorem Cursor.ofRange_off (f : SourceFile) {start stop : Nat} (order : start ≤ stop)
    (inside : stop ≤ f.content.length) : (Cursor.ofRange f start stop).off = start := by
  simp only [Cursor.ofRange, Nat.min_eq_left inside, Nat.min_eq_left order]

/-- A chunk is read where its tokens spell a component. -/
theorem Chunk.parse_eq_ok_iff (f : SourceFile) (keepText : Bool) (c : Chunk) (comp : Component) :
    c.parse f keepText = .ok comp ↔ ∃ used span,
      Stream.scan f.id (Cursor.ofRange f c.start c.stop).off (c.text f) = ⟨used, .eof span⟩ ∧
        Spells f.id (f.kept? keepText) used comp := by
  simp only [Chunk.parse, Stream.ofCursor_ofRange f, Chunk.text]
  obtain ⟨ts, stop, scanned⟩ : ∃ ts stop, Stream.scan f.id (Cursor.ofRange f c.start c.stop).off
      (f.content.slice c.start c.stop) = ⟨ts, stop⟩ := ⟨_, _, rfl⟩
  rw [scanned]
  constructor
  · intro h
    split at h
    · cases h
    · next comp' r hc =>
      obtain ⟨used, split, hstop, -, -, -, spells⟩ := spells_of_component hc
      split at h
      · next none ends =>
        cases h
        obtain rfl : ts = used := by
          rw [none, List.append_nil] at split
          exact split
        obtain rfl : stop = _ := hstop.symm.trans ends
        exact ⟨ts, _, rfl, spells⟩
      · cases h
      · cases h
  · rintro ⟨used, span, same, spells⟩
    cases same
    obtain ⟨r, hc, tokens, ends, -⟩ :=
      spells [] (.eof span) (Cursor.ofRange f c.start c.stop).point
    have hc : Parse.component f.id (Reading.ofStream ⟨ts, .eof span⟩
        (Cursor.ofRange f c.start c.stop).point (if keepText then some f.content else none)) =
          (.ok comp, r) := by
      rw [List.append_nil] at hc
      exact hc
    simp only [hc, tokens, ends]

/-- The same for a chunk that lies within its file. -/
theorem Chunk.parse_inside_iff (f : SourceFile) (keepText : Bool) {c : Chunk}
    (order : c.start ≤ c.stop) (inside : c.stop ≤ f.content.length) (comp : Component) :
    c.parse f keepText = .ok comp ↔ ∃ used span,
      Stream.scan f.id c.start (f.content.slice c.start c.stop) = ⟨used, .eof span⟩ ∧
        Spells f.id (f.kept? keepText) used comp := by
  rw [parse_eq_ok_iff, Cursor.ofRange_off f order inside]
  exact Iff.rfl

/-! ## Chunks and parts -/

namespace Chunk

/-- Where the chunk before some cuts ends. -/
def stopBefore (f : SourceFile) (later : List Cut) : Nat :=
  (later.head?.map (·.start)).getD f.content.length

theorem between_cons (f : SourceFile) (index : Nat) (c : Cut) (later : List Cut) :
    between f index (c :: later) =
      ⟨f.id, f.path, index, c.start, stopBefore f later, c.name⟩ ::
        between f (index + 1) later := by
  cases later <;> rfl

/-- The bytes from a place on are those up to a later place and those from there on. -/
theorem drop_eq_slice_append (b : Bytes) {start stop : Nat} (order : start ≤ stop) :
    b.drop start = b.slice start stop ++ b.drop stop := by
  have split := List.take_append_drop (stop - start) (b.drop start)
  rw [List.drop_drop, Nat.add_sub_cancel' order] at split
  rw [Bytes.slice, List.drop_take, split]

theorem length_slice (b : Bytes) {start stop : Nat} (order : start ≤ stop)
    (inside : stop ≤ b.length) : start + (b.slice start stop).length = stop := by
  rw [Bytes.slice, List.length_drop, List.length_take]
  omega

/-- Behind the word of a component its tokens name it and have no mark. -/
theorem marks_framed {name : String} {used : List Token} (h : Parse.Framed name used)
    (rest : List Token) :
    ∃ word tail, used = word :: tail ∧ word.kind = .keyword .component ∧
      Cutting.nameIn (tail ++ rest) = name ∧ marks 0 (tail ++ rest) = marks 0 rest := by
  obtain ⟨word, title, opening, body, close, rfl, hword, htitle, rfl, hopen, shifts, hclose⟩ := h
  refine ⟨word, title :: opening :: (body ++ [close]), rfl, hword, ?_, ?_⟩
  · simp [Cutting.nameIn, htitle]
  · rw [List.cons_append, List.cons_append, marks_other (by simp [htitle]) (by simp [htitle])
      (by simp [htitle]), marks_open hopen, List.append_assoc]
    have body := shifts 0 ([close] ++ rest)
    simp only [Nat.zero_add, Nat.add_zero] at body ⊢
    rw [body, List.singleton_append, marks_close hclose]

/-- A file from a place on, cut before one of its tokens: the tokens up to there are those of the
bytes up to there, and the others those of the rest. -/
theorem scan_cut {f : SourceFile} {pos : Nat} {before : List Token} {t : Token} {ts : List Token}
    {stop : Stop}
    (h : Stream.scan f.id pos (f.content.drop pos) = ⟨before ++ t :: ts, stop⟩) :
    (∃ span, Stream.scan f.id pos (f.content.slice pos t.span.start) = ⟨before, .eof span⟩) ∧
      Stream.scan f.id t.span.start (f.content.drop t.span.start) = ⟨t :: ts, stop⟩ := by
  obtain ⟨order, upTo, -⟩ := Stream.scan_token (t := t) (by rw [h]; simp)
  rw [List.length_drop] at upTo
  have size := length_slice f.content order (by omega)
  rw [drop_eq_slice_append f.content order] at h
  refine ⟨⟨_, Stream.scan_before h size.symm⟩, ?_⟩
  have rest := Stream.scan_from h size.symm
  rwa [size] at rest

/-- Parts that spell components are the chunks between the marks of their words. -/
theorem chunks_of_parts {f : SourceFile} {keepText : Bool} {parts : List (List Token)}
    {cs : List Component} (spelled : Spelled f.id (f.kept? keepText) parts cs)
    {used : List Token} {c : Component} (spells : Spells f.id (f.kept? keepText) used c)
    {cut : Cut} {span : Span} (inside : cut.start ≤ f.content.length)
    (scanned : Stream.scan f.id cut.start (f.content.drop cut.start) =
      ⟨used ++ parts.flatten, .eof span⟩) (index : Nat) :
    (between f index (cut :: marks 0 parts.flatten)).map (·.parse f keepText) =
        (c :: cs).map .ok ∧
      (between f index (cut :: marks 0 parts.flatten)).map (·.name) =
        cut.name :: cs.map (·.name) := by
  -- on the parts behind the first: the word of the next part is the next mark
  induction spelled generalizing used c cut index with
  | nil =>
    have parsed : Chunk.parse f ⟨f.id, f.path, index, cut.start, f.content.length, cut.name⟩
        keepText = .ok c := by
      refine (parse_inside_iff f keepText inside (Nat.le_refl _) c).mpr ⟨used, span, ?_, spells⟩
      rw [List.flatten_nil, List.append_nil] at scanned
      rw [← scanned, drop_eq_slice_append f.content inside, List.drop_length, List.append_nil]
    simp [marks, between, parsed]
  | @cons used' c' parts cs spells' _ ih =>
    obtain ⟨word, tail, rfl, hword, named, unmarked⟩ := marks_framed spells'.framed parts.flatten
    rw [List.flatten_cons, List.cons_append] at scanned
    obtain ⟨order, upTo, -⟩ := Stream.scan_token (t := word) (by rw [scanned]; simp)
    obtain ⟨⟨span', front⟩, behind⟩ := scan_cut scanned
    rw [List.length_drop] at upTo
    have parsed : Chunk.parse f ⟨f.id, f.path, index, cut.start, word.span.start, cut.name⟩
        keepText = .ok c :=
      (parse_inside_iff f keepText order (by simp only; omega) c).mpr ⟨used, span', front, spells⟩
    have next : (⟨word.span.start, c'.name⟩ : Cut).start ≤ f.content.length := by
      simp only
      omega
    obtain ⟨parses, names⟩ := ih spells' next (by rw [List.cons_append]; exact behind) (index + 1)
    rw [List.flatten_cons, List.cons_append, marks_word hword, named, unmarked, between_cons]
    simp only [List.map_cons, parses, names, stopBefore, List.head?_cons, Option.map_some,
      Option.getD_some, parsed, and_self]

/-- A chunk that ends behind a fault cannot be read. -/
theorem parse_ne_ok_of_fault {f : SourceFile} {keepText : Bool} {c : Chunk} {ts : List Token}
    {e : CompileError} (order : c.start ≤ c.stop) (inside : c.stop ≤ f.content.length)
    (scanned : Stream.scan f.id c.start (f.content.drop c.start) = ⟨ts, .fault e⟩)
    (behind : e.span.stop ≤ c.stop) (comp : Component) : c.parse f keepText ≠ .ok comp := by
  intro h
  obtain ⟨used, span, scanned', -⟩ := (parse_inside_iff f keepText order inside comp).mp h
  rw [drop_eq_slice_append f.content order] at scanned
  have fault := Stream.scan_fault_front scanned (by
    rw [length_slice f.content order inside]
    exact behind)
  rw [scanned'] at fault
  cases fault

/-- Where the next chunk ends, if no mark comes before. -/
theorem le_stopBefore {f : SourceFile} {low : Nat} {later : List Cut}
    (ascend : Ascend low f.content.length later) (inside : low ≤ f.content.length) :
    low ≤ stopBefore f later ∧ stopBefore f later ≤ f.content.length := by
  cases later with
  | nil => exact ⟨inside, Nat.le_refl _⟩
  | cons d later =>
    have := ascend.within d List.mem_cons_self
    exact ⟨this.1, Nat.le_of_lt this.2⟩

theorem map_eq_ok_cons {f : SourceFile} {keepText : Bool} {c : Chunk} {rest : List Chunk}
    {cs : List Component} (h : (c :: rest).map (·.parse f keepText) = cs.map .ok) :
    ∃ comp cs', cs = comp :: cs' ∧ c.parse f keepText = .ok comp ∧
      rest.map (·.parse f keepText) = cs'.map .ok := by
  cases cs with
  | nil => cases h
  | cons comp cs' =>
    simp only [List.map_cons, List.cons.injEq] at h
    exact ⟨comp, cs', rfl, h.1, h.2⟩

/-- Behind the last mark, a chunk is read only where the source ends without a fault, and then its
tokens spell the component. -/
theorem spells_of_last {f : SourceFile} {keepText : Bool} {stop : Stop} {tail : List Cut}
    (behind : Behind f stop tail) {ts : List Token} {cut : Cut}
    (scanned : Stream.scan f.id cut.start (f.content.drop cut.start) = ⟨ts, stop⟩)
    (inside : cut.start ≤ f.content.length) {index : Nat} {c : Component}
    (parsed : Chunk.parse f ⟨f.id, f.path, index, cut.start, stopBefore f tail, cut.name⟩ keepText =
      .ok c) :
    ∃ span, stop = .eof span ∧ tail = [] ∧ Spells f.id (f.kept? keepText) ts c := by
  cases stop with
  | eof span =>
    obtain rfl : tail = [] := behind
    obtain ⟨used, span', scanned', spells⟩ :=
      (parse_inside_iff f keepText inside (Nat.le_refl _) c).mp parsed
    have whole := drop_eq_slice_append f.content inside
    rw [List.drop_length, List.append_nil] at whole
    rw [whole] at scanned
    have same := scanned.symm.trans scanned'
    cases same
    exact ⟨span, rfl, rfl, spells⟩
  | fault e =>
    -- cuts go on behind a fault only, so the chunk has the fault in it
    obtain ⟨from_, order, upTo⟩ := Stream.scan_fault (e := e) (by rw [scanned])
    rw [List.length_drop] at upTo
    obtain ⟨least, most⟩ := le_stopBefore behind (by omega)
    exact absurd parsed (parse_ne_ok_of_fault (by simp only; omega) most scanned least c)

/-- A chunk that ends before a token is read where the tokens up to there spell the component. -/
theorem spells_of_cut {f : SourceFile} {keepText : Bool} {stop : Stop} {cut : Cut}
    {before rest : List Token} {u : Token}
    (scanned : Stream.scan f.id cut.start (f.content.drop cut.start) = ⟨before ++ u :: rest, stop⟩)
    {index : Nat} {c : Component}
    (parsed : Chunk.parse f ⟨f.id, f.path, index, cut.start, u.span.start, cut.name⟩ keepText =
      .ok c) :
    u.span.start ≤ f.content.length ∧ Spells f.id (f.kept? keepText) before c := by
  obtain ⟨order, upTo, -⟩ := Stream.scan_token (t := u) (by rw [scanned]; simp)
  rw [List.length_drop] at upTo
  have within : u.span.start ≤ f.content.length := by omega
  obtain ⟨⟨span, front⟩, -⟩ := scan_cut scanned
  obtain ⟨used, span', scanned', spells⟩ := (parse_inside_iff f keepText order within c).mp parsed
  have same := front.symm.trans scanned'
  cases same
  exact ⟨within, spells⟩

/-- Where all chunks from a token on are read, the tokens are parts that spell the components, and
the source ends without a fault. -/
theorem parts_of_chunks {f : SourceFile} {keepText : Bool} {stop : Stop} {tail : List Cut}
    (behind : Behind f stop tail) {t : Token} {rest : List Token} {depth : Nat} {cut : Cut}
    (scanned : Stream.scan f.id cut.start (f.content.drop cut.start) = ⟨t :: rest, stop⟩)
    (inside : cut.start ≤ f.content.length) {index : Nat} {cs : List Component}
    (parsed : (between f index (cut :: (marks depth rest ++ tail))).map (·.parse f keepText) =
      cs.map .ok) :
    ∃ parts span, stop = .eof span ∧ t :: rest = parts.flatten ∧
      Spelled f.id (f.kept? keepText) parts cs := by
  -- by the number of tokens left: each chunk takes those up to the next mark
  induction size : rest.length using Nat.strongRecOn generalizing t rest depth cut index cs with
  | ind n ih =>
    rw [between_cons] at parsed
    obtain ⟨comp, cs, rfl, first, more⟩ := map_eq_ok_cons parsed
    rcases marks_next depth rest with none | ⟨before, u, rest', rfl, word, next⟩
    · rw [none, List.nil_append] at first more
      obtain ⟨span, rfl, rfl, spells⟩ := spells_of_last behind scanned inside first
      obtain rfl : cs = [] := by simpa [between] using more.symm
      exact ⟨[t :: rest], span, rfl, by simp, .cons spells .nil⟩
    · rw [next, List.cons_append] at first more
      have scanned : Stream.scan f.id cut.start (f.content.drop cut.start) =
        ⟨(t :: before) ++ u :: rest', stop⟩ := scanned
      obtain ⟨inside', spells⟩ := spells_of_cut scanned first
      obtain ⟨-, rest⟩ := scan_cut scanned
      obtain ⟨parts, span, ends, flat, spelled⟩ := ih rest'.length
        (by rw [← size, List.length_append, List.length_cons]; omega) rest inside' more rfl
      exact ⟨(t :: before) :: parts, span, ends, by rw [List.flatten_cons, ← flat]; rfl,
        .cons spells spelled⟩

/-- The chunks of a file whose tokens are parts that spell components. -/
theorem split_of_parts {f : SourceFile} {keepText : Bool} {parts : List (List Token)}
    {cs : List Component} {span : Span}
    (scanned : Stream.scan f.id 0 f.content = ⟨parts.flatten, .eof span⟩)
    (spelled : Spelled f.id (f.kept? keepText) parts cs) :
    (split f).map (·.parse f keepText) = cs.map .ok ∧
      (split f).map (·.name) = cs.map (·.name) := by
  cases spelled with
  | nil => simp [split, cuts_of_eof scanned, between]
  | @cons used c parts cs spells spelled =>
    obtain ⟨word, tail, rfl, hword, named, unmarked⟩ := marks_framed spells.framed parts.flatten
    rw [List.flatten_cons, List.cons_append] at scanned
    obtain ⟨depth, name, tail', found, rfl, first⟩ := cuts_of_tokens scanned
    obtain ⟨rfl, rfl⟩ := first hword
    rw [named, unmarked, List.append_nil] at found
    rw [split, found]
    have whole : Stream.scan f.id (⟨0, c.name⟩ : Cut).start
        (f.content.drop (⟨0, c.name⟩ : Cut).start) = ⟨word :: tail ++ parts.flatten, .eof span⟩ :=
      scanned
    exact chunks_of_parts spelled spells (Nat.zero_le _) whole 0

/-- All chunks of a file are read where its tokens are parts that spell the components. -/
theorem split_parse_iff (f : SourceFile) (keepText : Bool) (cs : List Component) :
    (split f).map (·.parse f keepText) = cs.map .ok ↔ ∃ parts span,
      Stream.scan f.id 0 f.content = ⟨parts.flatten, .eof span⟩ ∧
        Spelled f.id (f.kept? keepText) parts cs := by
  constructor
  · intro h
    obtain ⟨ts, stop, scanned⟩ : ∃ ts stop, Stream.scan f.id 0 f.content = ⟨ts, stop⟩ :=
      ⟨_, _, rfl⟩
    cases ts with
    | nil =>
      cases stop with
      | eof span =>
        obtain rfl : cs = [] := by simpa [split, cuts_of_eof scanned, between] using h.symm
        exact ⟨[], span, scanned, .nil⟩
      | fault e =>
        obtain ⟨tail, found, behind⟩ := cuts_of_fault scanned
        rw [split, found, between_cons] at h
        obtain ⟨comp, -, -, first, -⟩ := map_eq_ok_cons h
        obtain ⟨span, ends, -, -⟩ := spells_of_last behind scanned (Nat.zero_le _) first
        cases ends
    | cons t rest =>
      obtain ⟨depth, name, tail, found, behind, -⟩ := cuts_of_tokens scanned
      rw [split, found] at h
      have whole : Stream.scan f.id (⟨0, name⟩ : Cut).start
          (f.content.drop (⟨0, name⟩ : Cut).start) = ⟨t :: rest, stop⟩ := scanned
      obtain ⟨parts, span, rfl, flat, spelled⟩ :=
        parts_of_chunks behind whole (Nat.zero_le _) h
      exact ⟨parts, span, by rw [scanned, flat], spelled⟩
  · rintro ⟨parts, span, scanned, spelled⟩
    exact (split_of_parts scanned spelled).1

/-! ## The chunks of a file -/

/-- A file is not cut where nothing stands in it. -/
theorem split_eq_nil_iff (f : SourceFile) :
    split f = [] ↔ (Lexer.ofFile f false).next.1.kind = .eof := by
  have rest : (Cursor.ofFile f).rest = f.content := by
    simp [Cursor.rest, Cursor.ofFile, Bytes.slice]
  have lexed : (Lexer.ofFile f false).next.1 =
      (Scan.read .general f.id 0 f.content).token.bare := by
    simp only [Lexer.next, Lexer.ofFile, Lexer.readToken, rest]
    rfl
  rw [lexed]
  cases fine : (Scan.read .general f.id 0 f.content).fault with
  | some e =>
    obtain ⟨tail, found, -⟩ := cuts_of_fault (Stream.scan_of_fault fine)
    rw [split, found, between_cons]
    have invalid := Scan.read_fault_kind fine
    simp [Token.bare, invalid]
  | none =>
    by_cases more : (Scan.read .general f.id 0 f.content).token.kind = .eof
    · have none : cuts f = [] := cuts_of_eof (Stream.scan_of_eof fine more)
      simp [split, none, between, Token.bare, more]
    · obtain ⟨depth, name, tail, found, -⟩ := cuts_of_tokens (Stream.scan_of_token fine more)
      rw [split, found, between_cons]
      simp [Token.bare, more]

/-- The chunks of a file lie one behind the other and fill it. -/
theorem split_tiles (f : SourceFile) :
    (∀ c ∈ (split f).head?, c.start = 0) ∧
      (split f).IsChain (fun c d => c.stop = d.start) ∧
      (∀ c ∈ (split f).getLast?, c.stop = f.content.length) ∧
      ∀ c ∈ split f, c.start < c.stop := by
  cases hc : cuts f with
  | nil => simp [split, hc, between]
  | cons cut later =>
    obtain ⟨first, inside, ascend⟩ := cuts_ascend hc
    obtain ⟨chain, last, within⟩ :=
      between_tiles f 0 cut later (first ▸ inside) (by rw [first]; exact ascend)
    have head := head?_between f 0 cut later
    rw [split, hc]
    refine ⟨fun c h => ?_, chain, fun c h => ?_, fun c h => (within c h).1⟩
    · rw [Option.mem_def.mp h, first] at head
      exact Option.some.inj head
    · rw [Option.mem_def.mp h] at last
      exact Option.some.inj last

/-- The chunks of a file fill it, and reading them one by one is reading the file: it is read as a
design exactly where every chunk is read and the names are distinct, with the same components under
the names that the chunks go by. -/
theorem split_agrees (f : SourceFile) (keepText : Bool) :
    ((∀ c ∈ (split f).head?, c.start = 0) ∧
      (split f).IsChain (fun c d => c.stop = d.start) ∧
      (∀ c ∈ (split f).getLast?, c.stop = f.content.length) ∧
      (∀ c ∈ split f, c.start < c.stop) ∧
      (split f = [] ↔ (Lexer.ofFile f false).next.1.kind = .eof)) ∧
    ((∃ d, Design.parse f keepText = .ok d) ↔ ∃ cs : List Component,
      (split f).map (·.parse f keepText) = cs.map .ok ∧ (cs.map (·.name)).Nodup) ∧
    ∀ d, Design.parse f keepText = .ok d →
      (split f).map (·.parse f keepText) = d.components.map .ok ∧
        (split f).map (·.name) = d.names := by
  obtain ⟨first, chain, last, order⟩ := split_tiles f
  refine ⟨⟨first, chain, last, order, split_eq_nil_iff f⟩, ⟨?_, ?_⟩, ?_⟩
  · rintro ⟨d, parsed⟩
    refine ⟨d.components, ?_, d.distinct⟩
    exact (split_parse_iff f keepText _).mpr ((Design.parse_eq_ok_iff f keepText d).mp parsed)
  · rintro ⟨cs, chunks, distinct⟩
    refine ⟨⟨cs, distinct⟩, ?_⟩
    exact (Design.parse_eq_ok_iff f keepText _).mpr ((split_parse_iff f keepText cs).mp chunks)
  · intro d parsed
    obtain ⟨parts, span, scanned, spelled⟩ := (Design.parse_eq_ok_iff f keepText d).mp parsed
    exact split_of_parts scanned spelled

end Chunk
end CircuitCompiler
