import CircuitCompiler.Proofs.Lines
import CircuitCompiler.Proofs.Widths

/-!
# The skeleton of a design unit

The lines of a design unit that are not indented are the same for every component, up to its name
and that of its architecture. All other lines are indented in whole steps, and every list in
parentheses has its items one step deeper than the line that opens it and the one that closes it.
Nothing that comes from a source can change this: names, constants and rendered expressions are
words and marks that neither break a line nor open a list at its end.

* `Vhdl.item_of_run`, `Expr.isBody_vhdl`: what comes from a source;
* `Vhdl.block_interface`, `Vhdl.block_declared`, `Vhdl.block_statements`: the parts of a design unit;
* `Vhdl.sheet_unitLines`, `Vhdl.emit_skeleton`: the whole unit and its text.
-/

namespace CircuitCompiler

open Vhdl

/-! ## What comes from a source -/

theorem IsName.run {s : String} (h : IsName s) : IsRun s.toList .word := by
  obtain ⟨c, rest, split, -⟩ := h.shape
  refine ⟨by rw [split]; exact List.cons_ne_nil c rest, fun x hx => ?_, .inl rfl⟩
  exact classOf_of_isNameChar (h.chars x hx)

namespace Vhdl

/-- Names joined by underscores are a word. -/
theorem joined_run {names : List String} (filled : names ≠ []) (words : ∀ s ∈ names, IsName s) :
    IsRun (String.intercalate "_" names).toList .word := by
  have mark : "_".toList = ['_'] := by decide
  induction names with
  | nil => exact absurd rfl filled
  | cons s rest ih =>
    obtain ⟨here, later⟩ := List.forall_mem_cons.mp words
    cases rest with
    | nil =>
      rw [String.intercalate_singleton]
      exact here.run
    | cons t rest =>
      have behind := ih (List.cons_ne_nil t rest) later
      rw [String.intercalate_cons_cons, String.toList_append, String.toList_append, mark]
      refine ⟨by simp, fun x hx => ?_, .inl rfl⟩
      rcases List.mem_append.mp hx with hx | hx
      · rcases List.mem_append.mp hx with hx | hx
        · exact here.run.alike x hx
        · rw [List.mem_singleton.mp hx]
          decide
      · exact behind.alike x hx

/-- A word can be an item of a list. -/
theorem item_of_run {s : String} (run : IsRun s.toList .word) : IsItem s := by
  have other : ∀ {c : Char}, c ∈ s.toList → c ∉ [' ', '\n', '(', ',', ';'] := by
    intro c hc mem
    have word := run.alike c hc
    revert word
    simp only [List.mem_cons, List.not_mem_nil, or_false] at mem
    rcases mem with rfl | rfl | rfl | rfl | rfl <;> decide
  refine ⟨⟨?_, fun lineBreak => other lineBreak (by decide)⟩, fun c last mem => ?_⟩
  · obtain ⟨c, rest, split⟩ := List.exists_cons_of_ne_nil run.filled
    have first : c ∈ s.toList := by rw [split]; exact List.mem_cons_self
    rw [split, List.head?_cons, Option.any_some, bne_iff_ne]
    rintro rfl
    exact other first (by decide)
  · refine other (List.mem_of_getLast? last) ?_
    simp only [List.mem_cons, List.not_mem_nil, or_false] at mem ⊢
    exact .inr (.inr mem)

/-- What stands before an item does not change how it ends. -/
theorem IsItem.behind {s t : String} (ht : IsItem t) (hs : IsBody s) : IsItem (s ++ t) := by
  refine ⟨hs.append ht.body.whole, fun c last => ?_⟩
  rw [lastChar_append ht.body.ne_nil] at last
  exact ht.ends c last

theorem noBreak_toString (n : Nat) : NoBreak (toString n) := fun lineBreak =>
  absurd (isDigit_of_mem_number lineBreak) (by decide)

theorem IsType.item {s : String} (h : IsType s) : IsItem s := by
  have closed : ∀ {inner close : String}, NoBreak inner → NoBreak close →
      lastChar close = some ')' → IsItem ("unsigned(" ++ inner ++ close) := by
    intro inner close whole whole' last
    have filled : close.toList ≠ [] := by
      intro none
      rw [lastChar, none] at last
      cases last
    have front : IsBody ("unsigned(" ++ inner) := IsBody.append (.of_decide (by decide)) whole
    refine ⟨front.append whole', fun c found => ?_⟩
    rw [lastChar_append filled, last] at found
    rw [← Option.some_inj.mp found]
    decide
  cases h with
  | integer | natural | boolean | bit =>
    exact item_of_run (isRun_of_all (by decide) (by decide) (.inl rfl))
  | generic name =>
    refine closed (noBreak_append.mpr ⟨(item_of_run name.run).body.whole, ?_⟩) ?_ ?_ <;> decide
  | vector => exact closed (noBreak_toString _) (by decide) (by decide)

theorem item_of_setting {s : Setting} (h : s.Lexical) : IsItem s.vhdl := by
  cases s with
  | name segment => exact item_of_run (IsName.run h)
  | literal span value => exact item_of_run (const_run h)

end Vhdl

theorem Path.isBody_lowered {p : Path} (h : p.Lexical) : IsBody p.lowered.text := by
  obtain ⟨filled, names⟩ := h.names
  unfold Path.lowered
  split
  · exact (item_of_run (name_run filled names)).body
  · have single : (Path.mk ⟨signalName p, p.span⟩ []).text = signalName p :=
      String.intercalate_singleton
    rw [single]
    exact (item_of_run (joined_run filled names)).body

/-- An expression with signals for its dotted paths is rendered on one line. -/
theorem Expr.isBody_vhdl {e : Expr} (h : e.Lexical) : IsBody e.lowered.vhdl := by
  have literal : NoBreak " " ∧ NoBreak "(" ∧ NoBreak ")" ∧ NoBreak " downto " ∧
      NoBreak ") when (" ∧ NoBreak ") else (" := by decide
  obtain ⟨blank, opening, closing, downto, whenMark, elseMark⟩ := literal
  have paren : IsBody "(" := .of_decide (by decide)
  induction e with
  | ref p => exact Path.isBody_lowered h
  | const s value => exact (item_of_run (const_run h)).body
  | binary s op left right ihl ihr =>
    have sign : NoBreak op.vhdl := by cases op <;> decide
    exact ((((ihl h.1).append blank).append sign).append blank).append (ihr h.2).whole
  | unary s op operand ih =>
    have inner := (ih h).whole
    cases op with
    | neg | not | bang => exact IsBody.append (.of_decide (by decide)) inner
    | paren => exact (paren.append inner).append closing
  | choice s cond yes no ihc ihy ihn =>
    have front := (paren.append (ihy h.2.1).whole).append whenMark
    have middle := (front.append (ihc h.1).whole).append elseMark
    exact (middle.append (ihn h.2.2).whole).append closing
  | index s target bit ih =>
    have front := (Path.isBody_lowered h.1).append opening
    exact (front.append (ih h.2).whole).append closing
  | range s target high low ihh ihl =>
    have front := ((Path.isBody_lowered h.1).append opening).append (ihh h.2.1).whole
    unfold Expr.lowered Expr.vhdl
    split
    · exact front.append closing
    · exact ((front.append downto).append (ihl h.2.2).whole).append closing

/-! ## The parts of a design unit -/

theorem Path.lexical_of_paths {e : Expr} (h : e.Lexical) : ∀ p ∈ e.paths, p.Lexical := by
  have single : ∀ q p : Path, q.Lexical → p ∈ Expr.paths.dotted q → p.Lexical := by
    intro q p lexical mem
    unfold Expr.paths.dotted at mem
    split at mem
    · cases mem
    · rwa [List.mem_singleton.mp mem]
  induction e with
  | ref q => exact fun p => single q p h
  | const => exact fun p none => absurd none List.not_mem_nil
  | binary s op left right ihl ihr => exact List.forall_mem_append.mpr ⟨ihl h.1, ihr h.2⟩
  | unary s op operand ih => exact ih h
  | choice s cond yes no ihc ihy ihn =>
    exact List.forall_mem_append.mpr ⟨List.forall_mem_append.mpr ⟨ihc h.1, ihy h.2.1⟩, ihn h.2.2⟩
  | index s target bit ih =>
    exact List.forall_mem_append.mpr ⟨fun p => single target p h.1, ih h.2⟩
  | range s target high low ihh ihl =>
    exact List.forall_mem_append.mpr
      ⟨List.forall_mem_append.mpr ⟨fun p => single target p h.1, ihh h.2.1⟩, ihl h.2.2⟩

namespace Component.Lexical

variable {c : Component} (h : c.Lexical)

include h

theorem assignments : ∀ a ∈ c.assignments, a.1.Lexical ∧ a.2.Lexical := by
  intro a mem
  obtain ⟨s, hs, here⟩ := List.mem_filterMap.mp mem
  have lexical := h.stmts s hs
  cases s with
  | assign span target value =>
    cases here
    exact lexical
  | inst | decl | block => cases here

theorem dottedPaths : ∀ p ∈ c.dottedPaths, p.Lexical := by
  intro p mem
  obtain ⟨a, ha, mem⟩ := List.mem_flatMap.mp mem
  obtain ⟨target, value⟩ := h.assignments a ha
  exact List.forall_mem_append.mpr
    ⟨Path.lexical_of_paths target, Path.lexical_of_paths value⟩ p mem

end Component.Lexical

namespace Vhdl

/-- The end of a statement. -/
theorem closed_statement (s : String) : lastChar (s ++ ";") ≠ some '(' := by
  rw [lastChar_append (by decide)]
  decide

theorem IsBody.statement {s : String} (h : IsBody s) : IsBody (s ++ ";") := h.append (by decide)

/-- A statement on a line of its own. -/
theorem block_statement {s : String} (h : IsBody s) : Block [flush (s ++ ";")] :=
  .line h.statement (closed_statement s)

theorem block_interface {c : Component} (h : c.Lexical) : Block (interfaceLines c) := by
  have type : ∀ d : Decl, d.Lexical → IsItem d.vhdlType := fun d lexical =>
    (isType_vhdl d.type lexical.width).item
  have colon : NoBreak " : " := by decide
  have generics : Block (clause "generic" (c.generics.map genericItem) ";" ";") := by
    refine .clause ';' (by decide) (by decide) (.inr rfl) (List.forall_mem_map.mpr fun d hd => ?_)
    have lexical := h.generics d hd
    exact (type d lexical).behind ((item_of_run lexical.name.run).body.append colon)
  have ports :
      Block (clause "port" (c.ports.map (portItem (longestName c.ports))) ";" ";") := by
    refine .clause ';' (by decide) (by decide) (.inr rfl) (List.forall_mem_map.mpr fun d hd => ?_)
    have lexical := h.ports d hd
    have mode : NoBreak (portMode d.role) := by
      unfold portMode
      split <;> decide
    have padded : IsBody (Text.padRight (longestName c.ports) d.name) :=
      (item_of_run lexical.name.run).body.append (noBreak_spaces _)
    exact (type d lexical).behind (((padded.append colon).append mode).append (by decide))
  exact generics.append ports

theorem block_subcomponent {c : Component} (h : c.Lexical) : Block (subcomponentLines c) := by
  have head : IsBody ("component " ++ c.name ++ " is") :=
    ((IsBody.of_decide (by decide)).append (item_of_run h.name.run).body.whole).append (by decide)
  have closed : lastChar ("component " ++ c.name ++ " is") ≠ some '(' := by
    rw [lastChar_append (by decide)]
    decide
  exact ((Block.line head closed).append (block_interface h).indented).append
    (.line (.of_decide (by decide)) (by decide))

theorem block_decls {c : Component} (h : c.Lexical) : Block (declLines c) := by
  refine .of_flush (List.forall_mem_map.mpr fun d hd => ?_)
  have lexical : d.Lexical := by
    refine h.innerDecls d ?_
    rcases List.mem_append.mp hd with hd | hd <;> exact (List.mem_filter.mp hd).1
  have name := (item_of_run lexical.name.run).body.whole
  have type := (isType_vhdl d.type lexical.width).item.body.whole
  -- a word, the name and the type
  have front : ∀ word, IsBody word → IsBody (word ++ d.name ++ " : " ++ d.vhdlType) := by
    intro word body
    exact ((body.append name).append (by decide)).append type
  unfold declLine
  split
  · exact ⟨_, rfl, (front _ (.of_decide (by decide))).statement, closed_statement _⟩
  · next value role =>
    have written : NoBreak value.vhdl := by
      have lexical := lexical.role
      rw [role] at lexical
      exact (item_of_setting lexical).body.whole
    have head := front "constant " (.of_decide (by decide))
    have whole : IsBody ("constant " ++ d.name ++ " : " ++ d.vhdlType ++ " := " ++ value.vhdl) :=
      (head.append (by decide)).append written
    exact ⟨_, rfl, whole.statement, closed_statement _⟩
  · exact ⟨_, rfl, (front _ (.of_decide (by decide))).statement, closed_statement _⟩

section Lowered

variable {library : Option Design} {c : Component} {l : Lowering}
  (known : ∀ d, library = some d → ∀ s ∈ d.components, s.Lexical) (lexical : c.Lexical)
  (lowers : lower library c = (.ok (), l))

include lexical

theorem run_of_path {p : Path} (hp : p ∈ c.dottedPaths) :
    IsRun (signalName p).toList .word ∧ IsRun (portName p).toList .word := by
  have words := lexical.dottedPaths p hp
  have filled : p.tail.map (·.name) ≠ [] := by simpa using Component.dottedPaths_dotted hp
  obtain ⟨some_, names⟩ := words.names
  exact ⟨joined_run some_ names, joined_run filled fun s hs => names s (List.mem_cons_of_mem _ hs)⟩

include lowers

theorem block_socket {s : Socket} (hs : s ∈ l.sockets) : Block (socketLines s) := by
  have inst := lexical.instances s.inst (lower_interface lowers hs).1
  have type := item_of_run inst.type.run
  have head : IsItem (s.inst.name ++ (if s.sub?.isSome then " : " else " : entity work.") ++
      s.inst.type) := by
    refine type.behind ((item_of_run inst.name.run).body.append ?_)
    split <;> decide
  have generics : ∀ item ∈ s.inst.bindings.map Binding.vhdl, IsItem item := by
    refine List.forall_mem_map.mpr fun b hb => ?_
    have lexical := inst.bindings b hb
    have name := (item_of_run lexical.name.run).body
    exact (item_of_setting lexical.value).behind (name.append (by decide))
  have ports : ∀ item ∈ s.connections.map (fun c => c.port ++ " => " ++ c.signal), IsItem item := by
    refine List.forall_mem_map.mpr fun k hk => ?_
    obtain ⟨p, hp, -, rfl⟩ := (mem_connections_iff lowers hs).mp hk
    obtain ⟨signal, port⟩ := run_of_path lexical hp
    exact (item_of_run signal).behind ((item_of_run port).body.append (by decide))
  have maps : ∀ tail, tail = "" ∨ tail = ";" →
      Block (clause "generic map" (s.inst.bindings.map Binding.vhdl) "," tail ++
        clause "port map" (s.connections.map fun c => c.port ++ " => " ++ c.signal) "," ";") := by
    intro tail ends
    have generics := Block.clause ',' (by decide : ("generic map", ',') ∈ listHeads)
      (by decide : ",".toList = [',']) ends generics
    have ports := Block.clause ',' (by decide : ("port map", ',') ∈ listHeads)
      (by decide : ",".toList = [',']) (.inr rfl : ";" = "" ∨ ";" = ";") ports
    exact generics.append ports
  have open_ := Block.line head.body fun opens => head.ends '(' opens (by decide)
  by_cases bare : ((s.inst.bindings.map Binding.vhdl).isEmpty &&
      (s.connections.map fun c => c.port ++ " => " ++ c.signal).isEmpty) = true
  · rw [socketLines, if_pos bare]
    exact block_statement head.body
  · rw [socketLines, if_neg bare]
    refine open_.append (maps _ ?_).indented
    split
    · exact .inr rfl
    · exact .inl rfl

include known

theorem block_declared :
    Block ((subcomponents l).flatMap subcomponentLines ++ declLines c ++ l.wires.map wireLine) := by
  have subs : Block ((subcomponents l).flatMap subcomponentLines) :=
    .flatMap fun s hs => block_subcomponent (lexical_subcomponent known lowers hs)
  refine (subs.append (block_decls lexical)).append
    (.of_flush (List.forall_mem_map.mpr fun w hw => ?_))
  obtain ⟨p, first, -⟩ := lower_wireType lowers hw
  have hp : p ∈ c.dottedPaths := List.mem_of_find?_eq_some first
  have name : signalName p = w.name := by simpa using List.find?_some first
  have signal := (item_of_run (run_of_path lexical hp).1).body.whole
  have type := (isType_wire known lexical lowers hw).item.body.whole
  have whole : IsBody ("signal " ++ w.name ++ " : " ++ w.type) :=
    (((IsBody.of_decide (by decide)).append (name ▸ signal)).append (by decide)).append type
  exact ⟨_, rfl, whole.statement, closed_statement _⟩

omit known in
theorem block_statements :
    Block (l.sockets.flatMap socketLines ++ l.assigns.map assignLine ++
      c.stmts.filterMap blockLine?) := by
  have sockets : Block (l.sockets.flatMap socketLines) :=
    .flatMap fun s hs => block_socket lexical lowers hs
  have assigns : Block (l.assigns.map assignLine) := by
    refine .of_flush (List.forall_mem_map.mpr fun a ha => ?_)
    rw [lower_assigns lowers] at ha
    obtain ⟨b, hb, rfl⟩ := List.mem_map.mp ha
    obtain ⟨target, value⟩ := lexical.assignments b hb
    have whole : IsBody (b.1.lowered.vhdl ++ " <= " ++ b.2.lowered.vhdl) :=
      ((Expr.isBody_vhdl target).append (by decide)).append (Expr.isBody_vhdl value).whole
    exact ⟨_, rfl, whole.statement, closed_statement _⟩
  have remarks : Block (c.stmts.filterMap blockLine?) := by
    refine .of_flush fun line hline => ?_
    obtain ⟨s, -, remark⟩ := List.mem_filterMap.mp hline
    cases s with
    | block span kind body =>
      cases remark
      refine ⟨_, rfl, ?_, ?_⟩
      · cases kind <;> exact .of_decide (by decide)
      · cases kind <;> decide
    | decl | inst | assign => cases remark
  exact (sockets.append assigns).append remarks

end Lowered

/-! ## The name of the architecture -/

/-- An architecture without a name in front of it is named all the same. -/
theorem arch_unnamed {r r' : Reading} {i : Item} (unnamed : r.current.kind = .keyword .arch)
    (read : Parse.arch r = (.ok i, r')) : ∃ a, i = .arch a ∧ a.name = "implementation" := by
  have none : Parse.archName r = (.ok none, r) := by
    refine (Parse.andThen_eq rfl).trans ?_
    simp only [unnamed]
    rfl
  obtain ⟨start, r₁, peeked, read⟩ := Parse.andThen_ok read
  cases peeked
  obtain ⟨name?, r₂, named, read⟩ := Parse.andThen_ok read
  rw [none] at named
  cases named
  obtain ⟨word, r₃, -, read⟩ := Parse.andThen_ok read
  obtain ⟨opening, r₄, -, read⟩ := Parse.andThen_ok read
  obtain ⟨stmts, r₅, -, read⟩ := Parse.andThen_ok read
  obtain ⟨close, r₆, -, read⟩ := Parse.andThen_ok read
  cases read
  exact ⟨_, rfl, rfl⟩

/-! ## The whole unit -/

/-- The name of the architecture, which is `implementation` where none is given. -/
def archName (c : Component) : String :=
  match c.arch? with
  | some a => a.name
  | none => "implementation"

/-- The lines of a design unit that are not indented. -/
def skeleton (c : Component) : List String :=
  ["library ieee;", "use ieee.std_logic_1164.all;", "use ieee.numeric_std.all;", "",
    "entity " ++ c.name ++ " is", "end entity;", "",
    "architecture " ++ archName c ++ " of " ++ c.name ++ " is", "begin", "end architecture;"]

theorem archName_eq (c : Component) :
    (c.arch?.map (·.name)).getD Architecture.defaultName = archName c := by
  unfold archName
  cases c.arch? <;> rfl

theorem noBreak_archName {c : Component} (h : c.Lexical) : NoBreak (archName c) := by
  unfold archName
  cases found : c.arch? with
  | none => decide
  | some a =>
    rcases (h.arch a found).name with name | word
    · exact (item_of_run name.run).body.whole
    · simp only [List.mem_cons, List.not_mem_nil, or_false] at word
      rcases word with same | same
      · show NoBreak a.name
        rw [same]
        decide
      · show NoBreak a.name
        rw [same]
        decide

section Unit

variable {library : Option Design} {c : Component} {l : Lowering}
  (known : ∀ d, library = some d → ∀ s ∈ d.components, s.Lexical) (lexical : c.Lexical)
  (lowers : lower library c = (.ok (), l))

include known lexical lowers

theorem sheet_unitLines : Sheet (unitLines c l) := by
  have name := (item_of_run lexical.name.run).body.whole
  have line : ∀ {body : String}, IsBody body → lastChar body ≠ some '(' → Block [flush body] :=
    .line
  have is_ : ∀ s, lastChar (s ++ " is") ≠ some '(' := by
    intro s
    rw [lastChar_append (by decide)]
    decide
  have clauses : Block libraryClauses := by
    refine .of_flush fun l hl => ?_
    simp only [libraryClauses, List.mem_cons, List.not_mem_nil, or_false] at hl
    rcases hl with rfl | rfl | rfl <;>
      exact ⟨_, rfl, .of_decide (by decide), by decide⟩
  have entity : Block (entityLines c) := by
    have head : IsBody ("entity " ++ c.name ++ " is") :=
      ((IsBody.of_decide (by decide)).append name).append (by decide)
    exact ((line head (is_ _)).append (block_interface lexical).indented).append
      (line (.of_decide (by decide)) (by decide))
  have arch : Block (archLines c l) := by
    have head : IsBody ("architecture " ++ archName c ++ " of " ++ c.name ++ " is") :=
      ((((IsBody.of_decide (by decide)).append (noBreak_archName lexical)).append
        (by decide)).append name).append (by decide)
    have declared := (block_declared known lexical lowers).indented
    have statements := (block_statements lexical lowers).indented
    have front := (line head (is_ _)).append declared
    have begin_ : Block [flush "begin"] := line (.of_decide (by decide)) (by decide)
    have behind := begin_.append statements
    rw [archLines, archName_eq]
    exact (front.append behind).append (line (.of_decide (by decide)) (by decide))
  have blank := Sheet.blank
  exact (clauses.sheet.append (blank.append entity.sheet)).append (blank.append arch.sheet)

/-- The lines of a design unit that are not indented, as they are written. -/
theorem shown_flush_unitLines (step : Nat) :
    ((unitLines c l).filter isFlush).map (Line.shown step) = skeleton c := by
  have interface := (block_interface lexical).filter_indented
  have declared := (block_declared known lexical lowers).filter_indented
  have statements := (block_statements lexical lowers).filter_indented
  rw [List.append_assoc] at declared statements
  simp [unitLines, libraryClauses, entityLines, archLines, archName_eq, List.filter_cons, interface,
    declared, statements, skeleton]

end Unit

/-- An emitted design unit consists of lines. Those that are not indented are the skeleton, in its
order. All others are indented in whole steps. And a line that ends with an opening parenthesis
opens a list, in which all items but the last end with the separator, and the last does not. The
architecture in the skeleton has the name that was read, which is `implementation` where the source
has none. -/
theorem emit_skeleton {c : Component} {g g' : Generator} {text : String} (sourced : c.Sourced)
    (library : ∀ d, g.library = some d → ∀ s ∈ d.components, s.Sourced)
    (emits : g.emit c = (.ok text, g')) (wide : 1 ≤ indentStep g.indent) :
    text = String.join ((linesOf text).map (· ++ "\n")) ∧
      ((linesOf text).filter fun line => !startsBlank line) = skeleton c ∧
      (∀ line ∈ linesOf text, startsBlank line = true → ∃ depth body, 1 ≤ depth ∧ IsBody body ∧
        line = Text.spaces (depth * indentStep g.indent) ++ body) ∧
      (∀ before line after, linesOf text = before ++ line :: after → lastChar line = some '(' →
        ListBehind (indentStep g.indent) line after) ∧
      ∀ (r r' : Reading) (i : Item), r.current.kind = .keyword .arch →
        Parse.arch r = (.ok i, r') → ∃ a, i = .arch a ∧ a.name = "implementation" := by
  obtain ⟨lowers, written⟩ := lower_of_emit emits
  have lexical := sourced.lexical
  have known : ∀ d, g.library = some d → ∀ s ∈ d.components, s.Lexical := fun d found s hs =>
    (library d found s hs).lexical
  have sheet := sheet_unitLines known lexical lowers
  have lines : linesOf text = (unitLines c g'.work).map (Line.shown (indentStep g.indent)) := by
    rw [written, linesOf_renderLines sheet.bodies]
  rw [lines]
  refine ⟨by rw [written, renderLines_eq], ?_, ?_, fun before line after => sheet.listBehind,
    fun r r' i => arch_unnamed⟩
  · rw [List.filter_map, ← shown_flush_unitLines known lexical lowers (indentStep g.indent)]
    refine congrArg _ (List.filter_congr fun l hl => ?_)
    rw [Function.comp_apply, sheet.startsBlank_shown wide hl, Bool.not_not]
  · intro line mem starts
    obtain ⟨l, hl, rfl⟩ := List.mem_map.mp mem
    rw [sheet.startsBlank_shown wide hl, Bool.not_eq_true'] at starts
    cases l with
    | blank => cases starts
    | text k body =>
      cases k with
      | zero => cases starts
      | succ k => exact ⟨k + 1, body, Nat.le_add_left 1 k, sheet.bodies _ body hl, rfl⟩

theorem emit_skeleton_widthsBound :
    ∃ text g', (Generator.mk (some widthsDesign) 4 default).emit widthsBound = (.ok text, g') ∧
      (1 ≤ indentStep 4) ∧
      ((linesOf text).filter fun line => !startsBlank line) =
        ["library ieee;", "use ieee.std_logic_1164.all;", "use ieee.numeric_std.all;", "",
          "entity T is", "end entity;", "", "architecture implementation of T is", "begin",
          "end architecture;"] := by
  obtain ⟨text, g', run⟩ : ∃ text g',
      (Generator.mk (some widthsDesign) 4 default).emit widthsBound = (.ok text, g') :=
    emitted_of_isOk (by decide)
  have sourced := Design.sourced_of_parse parse_widthsSource
  have library : ∀ d, some widthsDesign = some d → ∀ s ∈ d.components, s.Sourced :=
    fun d same => Option.some_inj.mp same ▸ sourced
  have wide : 1 ≤ indentStep 4 := by decide
  obtain ⟨-, lines, -⟩ := emit_skeleton (sourced widthsBound (by decide)) library run wide
  exact ⟨text, g', run, wide, lines.trans (by decide)⟩

end Vhdl
end CircuitCompiler
