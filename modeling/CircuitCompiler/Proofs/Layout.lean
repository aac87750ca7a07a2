import CircuitCompiler.Proofs.Mirror
import CircuitCompiler.Proofs.Shapes

/-!
# Layout does not matter

White space, line ends and comments give places to the tokens of a source and nothing else. Sources
of the same shape are the same reading once all places are forgotten, and what the grammar does on
either is mirrored on that reading. So both are read alike, and what is read is emitted alike.

* `Design.parseFrom_onto`: a run over a file, mirrored where places are forgotten;
* `Vhdl.Generator.emit_alike`: the same components up to places are emitted alike;
* `Design.parse_layout`: sources of the same shape.
-/

namespace CircuitCompiler

/-- Two outcomes: results in a relation, or errors with the same class and code. -/
inductive Concur {α β : Type} (R : α → β → Prop) :
    Except CompileError α → Except CompileError β → Prop
  | ok {a : α} {b : β} (h : R a b) : Concur R (.ok a) (.ok b)
  | error {e e' : CompileError} (h : e.Akin e') : Concur R (.error e) (.error e')

namespace Concur

variable {α β γ : Type}

theorem mono {R S : α → β → Prop} {x : Except CompileError α} {y : Except CompileError β}
    (weaker : ∀ a b, R a b → S a b) (h : Concur R x y) : Concur S x y := by
  cases h with
  | ok h => exact .ok (weaker _ _ h)
  | error h => exact .error h

theorem and {R S : α → β → Prop} {x : Except CompileError α} {y : Except CompileError β}
    (h : Concur R x y) (h' : Concur S x y) : Concur (fun a b => R a b ∧ S a b) x y := by
  cases h with
  | ok h =>
    cases h' with
    | ok h' => exact .ok ⟨h, h'⟩
  | error h => exact .error h

/-- Outcomes are alike where both are like a third. -/
theorem meet {R : α → γ → Prop} {S : β → γ → Prop} {x : Except CompileError α}
    {y : Except CompileError β} {z : Except CompileError γ} (h : Concur R x z) (h' : Concur S y z) :
    Concur (fun a b => ∃ c, R a c ∧ S b c) x y := by
  cases h with
  | ok h =>
    cases h' with
    | ok h' => exact .ok ⟨_, h, h'⟩
  | error h =>
    cases h' with
    | error h' => exact .error (h.trans h'.symm)

end Concur

/-! ## Forgetting places -/

namespace Relocation

/-- All places are forgotten, and raw blocks keep the text they have. -/
def unplaced : Relocation where
  span _ := .zero
  body := id
  source? := none
  target? := none
  zero := rfl
  cover _ _ := rfl
  between _ _ := Eq.refl []

/-- A relocation that forgets all places. -/
structure Forgets (m : Relocation) : Prop where
  span (s : Span) : m.span s = .zero
  target : m.target? = none

theorem forgets_erased (source? : Option Bytes) : (erased source?).Forgets := ⟨fun _ => rfl, rfl⟩

theorem forgets_unplaced : unplaced.Forgets := ⟨fun _ => rfl, rfl⟩

variable {m : Relocation}

theorem Forgets.token (h : m.Forgets) (t : Token) : m.token t = (erased none).token t := by
  rw [Relocation.token, h.span]
  rfl

theorem Forgets.stop (h : m.Forgets) (s : Stop) : m.stop s = (erased none).stop s := by
  cases s with
  | eof span => simp only [Relocation.stop, h.span, (forgets_erased none).span]
  | fault e => simp only [Relocation.stop, error, h.span, (forgets_erased none).span]

theorem Forgets.fresh (h : m.Forgets) (r : Reading) : (m.onto r).fresh = m.onto r.fresh := by
  simp only [Reading.fresh, m.onto_current, token_span, h.span]
  simp only [onto, reading, h.span, List.map_nil]
  rfl

end Relocation

/-- A component without its places and its file. -/
def Component.unplaced (c : Component) : Component := Relocation.unplaced.component 0 c

/-- The start of a source, without places. -/
def SourceFile.reading (f : SourceFile) : Reading :=
  let s := Stream.scan f.id 0 f.content
  .ofStream ⟨erasedTokens s.tokens, (Relocation.erased none).stop s.stop⟩ .zero none

theorem SourceFile.onto_start {m : Relocation} (h : m.Forgets) (f : SourceFile)
    (source? : Option Bytes) :
    m.onto (.ofStream (.scan f.id 0 f.content) (.point f.id 0) source?) = f.reading := by
  have tokens : (Stream.scan f.id 0 f.content).tokens.map m.token =
      erasedTokens (Stream.scan f.id 0 f.content).tokens := List.map_congr_left fun t _ => h.token t
  simp only [Relocation.onto, Reading.ofStream, Relocation.reading, tokens, h.stop, h.span,
    h.target, reading, List.map_nil]

/-- Ends that hand out the same kind and text are the same up to places. -/
theorem Stop.erased_eq {s s' : Stop} {last : Kind × Bytes} (h : s.EndsIn last)
    (h' : s'.EndsIn last) : (Relocation.erased none).stop s = (Relocation.erased none).stop s' := by
  cases s with
  | eof span =>
    cases s' with
    | eof span' => rfl
    | fault e' => cases (show last.1 = .eof from h).symm.trans h'.1
  | fault e =>
    cases s' with
    | eof span' => cases (show last.1 = .eof from h').symm.trans h.1
    | fault e' =>
      have causes : e.cause = e'.cause := h.2.trans h'.2.symm
      simp only [Relocation.stop, Relocation.error, causes]
      rfl

/-- Sources of the same shape are the same reading without places. -/
theorem SourceFile.reading_eq {f f' : SourceFile} (same : f.shapes = f'.shapes) :
    f.reading = f'.reading := by
  obtain ⟨last, shapes, ends⟩ := f.shapes_eq
  obtain ⟨last', shapes', ends'⟩ := f'.shapes_eq
  rw [shapes, shapes'] at same
  obtain ⟨tokens, one⟩ := List.append_inj' same rfl
  obtain rfl : last = last' := List.singleton_inj.mp one
  rw [reading, reading, Stop.erased_eq ends ends',
    Stream.erasedTokens_eq Stream.scan_scanned Stream.scan_scanned tokens]

/-! ## Reading -/

namespace Design

/-- A design that is what a view makes of another, component by component. -/
def Becomes (view : Component → Component) (d e : Design) : Prop :=
  d.components.map view = e.components

/-- Two designs with the same components in the same order, seen through a view. -/
def Matches (view : Component → Component) (d d' : Design) : Prop :=
  d.components.map view = d'.components.map view

theorem add?_view (view : Component → Component) (named : ∀ c, (view c).name = c.name)
    {d e : Design} (becomes : d.Becomes view e) (c : Component) :
    Option.Rel (Becomes view) (d.add? c) (e.add? (view c)) := by
  have units : d.components.map view = e.components := becomes
  have names : e.components.map (·.name) = d.components.map (·.name) := by
    rw [← units, List.map_map]
    exact List.map_congr_left fun c _ => named c
  have has : e.has (view c).name = true ↔ d.has c.name = true := by
    rw [has_eq_true_iff, has_eq_true_iff, named, names]
  unfold add?
  by_cases taken : d.has c.name = true
  · rw [dif_pos taken, dif_pos (has.mpr taken)]
    exact .none
  · rw [dif_neg taken, dif_neg (mt has.mp taken)]
    refine .some ?_
    show (d.components ++ [c]).map view = e.components ++ [view c]
    rw [List.map_append, List.map_singleton, units]

/-- A file is read where places are forgotten as it is read in its places. -/
theorem parseFrom_onto {m : Relocation} (forgets : m.Forgets) {file fuel : Nat} {r : Reading}
    {d e : Design} (source : r.source? = m.source?) (becomes : d.Becomes (m.component 0) e) :
    Concur (Becomes (m.component 0)) (parseFrom file fuel r d)
      (parseFrom 0 fuel (m.onto r) e) := by
  induction fuel generalizing r d e with
  | zero => exact .error ⟨rfl, rfl⟩
  | succ fuel ih =>
    rw [parseFrom, parseFrom, m.onto_current, m.token_kind, forgets.fresh]
    by_cases ended : r.current.kind = .eof
    · rw [if_pos ended, if_pos ended]
      exact .ok becomes
    rw [if_neg ended, if_neg ended]
    have mirrors : Parse.Mirrors m (m.component 0) (Parse.component file) (Parse.component 0) :=
      Parse.mirrors_component
    have mirrored := mirrors r.fresh source
    rcases read : Parse.component file r.fresh with ⟨err | c, r'⟩
    · rw [read] at mirrored
      obtain ⟨err', r'', fails, akin⟩ := mirrored
      rw [fails]
      exact .error akin
    · rw [read] at mirrored
      obtain ⟨source', reads⟩ := mirrored
      rw [reads]
      -- views keep names, so both runs register the component or both refuse it
      have added := add?_view (m.component 0) (fun _ => rfl) becomes c
      simp only
      generalize d.add? c = next at added ⊢
      generalize e.add? (m.component 0 c) = next' at added ⊢
      cases added with
      | some becomes' => exact ih source' becomes'
      | none => exact .error ⟨rfl, rfl⟩

/-- A file is read as its reading without places is. -/
theorem parse_reading {m : Relocation} (forgets : m.Forgets) {f : SourceFile} {keepText : Bool}
    (source : f.kept? keepText = m.source?) :
    Concur (Becomes (m.component 0)) (parse f keepText)
      (parseFrom 0 (f.reading.tokens.length + 1) f.reading {}) := by
  have start : parse f keepText =
      parseFrom f.id ((Stream.scan f.id 0 f.content).tokens.length + 1)
        (.ofStream (.scan f.id 0 f.content) (.point f.id 0) (f.kept? keepText)) {} := by
    rw [← Stream.ofCursor_ofFile]
    rfl
  have fuel : f.reading.tokens.length = (Stream.scan f.id 0 f.content).tokens.length :=
    List.length_map _
  rw [start, fuel, ← f.onto_start forgets (f.kept? keepText)]
  exact parseFrom_onto forgets source rfl

/-- Sources of the same shape are read as the same components, up to places. -/
theorem parse_matches {m m' : Relocation} (forgets : m.Forgets) (forgets' : m'.Forgets)
    {view : Component → Component} (views : ∀ c, m.component 0 c = view c)
    (views' : ∀ c, m'.component 0 c = view c) {f f' : SourceFile} (same : f.shapes = f'.shapes)
    {keepText : Bool} (source : f.kept? keepText = m.source?)
    (source' : f'.kept? keepText = m'.source?) :
    Concur (Matches view) (parse f keepText) (parse f' keepText) := by
  -- the run on either source is the run on the reading that the two share
  have here := parse_reading forgets source
  have there := parse_reading forgets' source'
  rw [← SourceFile.reading_eq same] at there
  refine (here.meet there).mono fun d d' ⟨e, becomes, becomes'⟩ => ?_
  rw [funext views] at becomes
  rw [funext views'] at becomes'
  exact Eq.trans becomes (Eq.symm becomes')

end Design

/-! ## Emission -/

namespace Vhdl

/-- Libraries with the same components up to places know the same interfaces up to places. -/
theorem interface?_plain {library library' : Option Design}
    (same : Option.Rel (Design.Matches Component.plain) library library') (type : String) :
    (interface? library type).map Component.plain =
      (interface? library' type).map Component.plain := by
  cases same with
  | none => rfl
  | @some d d' matched =>
    have found : ∀ e : Design, (e.get? type).map Component.plain =
        (e.components.map Component.plain).find? fun c => c.name == type := by
      intro e
      rw [Design.get?, List.find?_map]
      rfl
    exact (found d).trans ((congrArg (List.find? _) matched).trans (found d').symm)

/-- Components that are the same up to places are emitted alike by generators whose libraries are
the same up to places. -/
theorem Generator.emit_alike {g g' : Generator} {c c' : Component} (indent : g.indent = g'.indent)
    (library : Option.Rel (Design.Matches Component.plain) g.library g'.library)
    (same : c.plain = c'.plain) : Concur Eq (g.emit c).1 (g'.emit c').1 := by
  have moved := emit_moved (.erased none) indent same fun i _ => interface?_plain library i.type
  revert moved
  rcases (g.emit c).1 with e | vhdl <;> rcases (g'.emit c').1 with e' | vhdl' <;> intro moved
  · have errors : (Relocation.erased none).error e = (Relocation.erased none).error e' :=
      Except.error.inj moved
    have causes := congrArg CompileError.cause errors
    exact .error (.of_cause causes)
  · cases moved
  · cases moved
  · exact .ok (Except.ok.inj moved)

end Vhdl

namespace Design

/-- Component by component, generators with the same indentation, whose libraries have the same
components up to places, write the same VHDL or fail with the same class and code. -/
def EmitsAlike (d d' : Design) : Prop :=
  ∀ g g' : Vhdl.Generator, g.indent = g'.indent →
    Option.Rel (Matches Component.plain) g.library g'.library →
    List.Forall₂ (fun c c' => Concur Eq (g.emit c).1 (g'.emit c').1) d.components d'.components

theorem Matches.emitsAlike {d d' : Design} (h : d.Matches Component.plain d') :
    d.EmitsAlike d' := by
  intro g g' indent library
  have equal : List.Forall₂ Eq (d.components.map Component.plain)
      (d'.components.map Component.plain) := by
    rw [List.forall₂_eq_eq_eq]
    exact h
  rw [List.forall₂_map_left_iff, List.forall₂_map_right_iff] at equal
  exact equal.imp fun _ _ same => Vhdl.Generator.emit_alike indent library same

/-- What two designs have in common that were read from sources of the same shape. -/
structure SameUnits (keepText : Bool) (d d' : Design) : Prop where
  /-- The same components in the same order, up to places and the text of raw blocks. -/
  plain : d.Matches Component.plain d'
  /-- Where raw blocks keep no text, the same components up to places alone. -/
  unplaced : keepText = false → d.Matches Component.unplaced d'
  emits : d.EmitsAlike d'

/-- Sources with the same kinds and texts of tokens are read alike, whatever stands between the
tokens: as the same components, which are emitted alike, or with errors of the same class and code.
-/
theorem parse_layout {f f' : SourceFile} (same : f.shapes = f'.shapes) (keepText : Bool) :
    Concur (SameUnits keepText) (parse f keepText) (parse f' keepText) := by
  have plain : Concur (Matches Component.plain) (parse f keepText) (parse f' keepText) :=
    parse_matches (Relocation.forgets_erased _) (Relocation.forgets_erased _)
      (Relocation.component_erased _) (Relocation.component_erased _) same rfl rfl
  cases keepText with
  | true => exact plain.mono fun d d' matched => ⟨matched, nofun, matched.emitsAlike⟩
  | false =>
    -- no text is kept, so nothing of the raw blocks has to be forgotten
    have unplaced : Concur (Matches Component.unplaced) (parse f false) (parse f' false) :=
      parse_matches Relocation.forgets_unplaced Relocation.forgets_unplaced (fun _ => rfl)
        (fun _ => rfl) same rfl rfl
    exact (plain.and unplaced).mono fun d d' ⟨matched, placed⟩ =>
      ⟨matched, fun _ => placed, matched.emitsAlike⟩

/-- A component without any layout. -/
def tight : SourceFile where
  id := 0
  path := "tight.cdl"
  content := Bytes.ofString
    "component R\x7bport\x7binput vec b;\x7darch\x7bq<=b[3:0]<=b[7:4];\x7d\x7d"
  flags := 0

/-- The component on lines of its own, with a comment. -/
def airy : SourceFile where
  id := 1
  path := "airy.cdl"
  content := Bytes.ofString ("component R \x7b\n  port \x7b input vec b; \x7d\n" ++
    "  arch \x7b q <= b[3 : 0] /* at most */ <= b[7 : 4]; \x7d\n\x7d\n")
  flags := 0

theorem parse_layout_tight : tight.shapes = airy.shapes ∧ tight.content ≠ airy.content ∧
    (parse tight false).isOk = true ∧
    Concur (SameUnits false) (parse tight false) (parse airy false) := by
  have same : tight.shapes = airy.shapes := by decide +kernel
  exact ⟨same, by decide +kernel, by decide +kernel, parse_layout same false⟩

end Design
end CircuitCompiler
