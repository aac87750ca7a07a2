import CircuitCompiler.Proofs.Identifiers
import CircuitCompiler.Proofs.Schema
import CircuitCompiler.Proofs.Tables

/-!
# Tables in the shape of their schema

The schema asks of tables that their names are identifiers, that the widths of ports are numbers or
identifiers and that the kinds of declarations are words of the list; the rest holds of all tables,
however they came about. The names in the tables of a design are words of its source, and these are
what the schema asks for.

* `Facts.Tables.admits_iff`: what the schema asks of tables;
* `Facts.extract_conforms`: the tables of a design that was read are as it asks.
-/

namespace CircuitCompiler.Facts

open Notation.Pattern (Heads)
open Shape
open Text (Json)

/-! ## Single values -/

@[simp] theorem accepts_identifier {s : String} :
    identifier.accepts (.ofString s) = true ↔ IsIdentifier s := isIdentifier_ofString

@[simp] theorem accepts_width {s : String} : width.accepts (.ofString s) = true ↔ IsWidth s :=
  isWidth_ofString

theorem accepts_oneOf {words : List String} {s : String} :
    (oneOf words).accepts (.ofString s) = true ↔ s ∈ words := by
  constructor
  · intro accepted
    obtain ⟨w, listed, same⟩ := List.any_eq_true.mp accepted
    exact Bytes.ofString_injective (eq_of_beq same) ▸ listed
  · exact fun listed => List.any_eq_true.mpr ⟨s, listed, beq_self_eq_true _⟩

@[simp] theorem accepts_text {s : String} : Shape.text.accepts (.ofString s) = true := rfl

@[simp] theorem accepts_count {n : Nat} : count.accepts (.ofNat n) = true := by
  refine isCount_iff.mpr ⟨fun empty => ?_, fun c => isDigit_of_mem_number⟩
  have digits : (toString n).toList = Nat.toDigits 10 n := Nat.toList_repr
  rw [empty] at digits
  exact Nat.toDigits_ne_nil digits.symm

@[simp] theorem accepts_type {t : DataType} : Schema.type.accepts (.ofString t.name) = true := by
  refine accepts_oneOf.mpr ?_
  cases t <;> decide

@[simp] theorem accepts_direction {d : Direction} :
    (oneOf ["input", "output"]).accepts (.ofString d.name) = true := by
  refine accepts_oneOf.mpr ?_
  cases d <;> decide

theorem accepts_listOf {α : Type} {item : Shape} {rows : List α} {json : α → Json} :
    (listOf item).accepts (.array (rows.map json)) = true ↔
      ∀ r ∈ rows, item.accepts (json r) = true :=
  acceptsAll_iff.trans List.forall_mem_map

@[simp] theorem accepts_mapOf {pairs : List (String × String)} :
    (mapOf .text).accepts (.object (pairs.map fun g => (g.1, .ofString g.2))) = true ↔
      ∀ g ∈ pairs, IsIdentifier g.1 := by
  refine acceptsFields_iff.trans (List.forall_mem_map.trans (forall₂_congr fun g _ => ?_))
  rw [← isIdentifier_ofString]
  constructor
  · rintro ⟨s, found, -⟩
    exact (Option.ite_none_right_eq_some.mp found).1
  · exact fun like => ⟨.text, if_pos like, accepts_text⟩

theorem accepts_record {fields : List (String × Bool × Shape)} {given : List (String × Json)} :
    (record fields).accepts (.object given) =
      (complete fields given && acceptsFields (fieldShape? fields) given) := rfl

/-! ## Rows -/

def ComponentRow.Conforms (r : ComponentRow) : Prop :=
  IsIdentifier r.name ∧ (r.arch = "" ∨ IsIdentifier r.arch)

def GenericRow.Conforms (r : GenericRow) : Prop := IsIdentifier r.component ∧ IsIdentifier r.name

def PortRow.Conforms (r : PortRow) : Prop :=
  IsIdentifier r.component ∧ IsIdentifier r.name ∧ (r.width.text = "" ∨ IsWidth r.width.text)

def SignalRow.Conforms (r : SignalRow) : Prop :=
  IsIdentifier r.component ∧ IsIdentifier r.name ∧ r.kind ∈ ["signal", "variable", "const"]

def InstanceRow.Conforms (r : InstanceRow) : Prop :=
  IsIdentifier r.component ∧ IsIdentifier r.name ∧ IsIdentifier r.target ∧
    ∀ g ∈ r.generics, IsIdentifier g.1

def DependencyRow.Conforms (r : DependencyRow) : Prop := IsIdentifier r.user ∧ IsIdentifier r.used

/-- The rows are as the schema asks. -/
structure Tables.Conforms (t : Tables) : Prop where
  components : ∀ r ∈ t.components, r.Conforms
  generics : ∀ r ∈ t.generics, r.Conforms
  ports : ∀ r ∈ t.ports, r.Conforms
  signals : ∀ r ∈ t.signals, r.Conforms
  instances : ∀ r ∈ t.instances, r.Conforms
  dependencies : ∀ r ∈ t.dependencies, r.Conforms

section Rows

-- the fields of a row are fixed, but for those that are left out, so looking them up computes
attribute [local simp] complete acceptsFields fieldShape? Schema.required Schema.optional field
  optional List.lookup

theorem ComponentRow.accepts_iff {r : ComponentRow} :
    Schema.component.accepts r.json = true ↔ r.Conforms := by
  by_cases none : r.arch = "" <;>
    simp [json, Conforms, Schema.component, accepts_record, none]

theorem GenericRow.accepts_iff {r : GenericRow} :
    Schema.generic.accepts r.json = true ↔ r.Conforms := by
  simp [json, Conforms, Schema.generic, accepts_record]

theorem PortRow.accepts_iff {r : PortRow} : Schema.port.accepts r.json = true ↔ r.Conforms := by
  by_cases none : r.width.text = "" <;>
    simp [json, Conforms, Schema.port, accepts_record, none]

theorem SignalRow.accepts_iff {r : SignalRow} :
    Schema.signal.accepts r.json = true ↔ r.Conforms := by
  by_cases none : r.width.text = "" <;>
    simp [json, Conforms, Schema.signal, accepts_record, accepts_oneOf, none]

theorem InstanceRow.accepts_iff {r : InstanceRow} :
    Schema.inst.accepts r.json = true ↔ r.Conforms := by
  by_cases none : r.generics = [] <;>
    simp [json, Conforms, Schema.inst, accepts_record, none]

theorem DependencyRow.accepts_iff {r : DependencyRow} :
    Schema.dependency.accepts r.json = true ↔ r.Conforms := by
  simp [json, Conforms, Schema.dependency, accepts_record]

/-- What the schema asks of tables. -/
theorem Tables.accepts_iff {t : Tables} :
    Schema.tables.accepts t.json = true ↔ t.Conforms := by
  have rows : Schema.tables.accepts t.json = true ↔
      (∀ r ∈ t.components, r.Conforms) ∧ (∀ r ∈ t.generics, r.Conforms) ∧
        (∀ r ∈ t.ports, r.Conforms) ∧ (∀ r ∈ t.signals, r.Conforms) ∧
        (∀ r ∈ t.instances, r.Conforms) ∧ ∀ r ∈ t.dependencies, r.Conforms := by
    simp [json, Schema.tables, accepts_record, accepts_listOf, ComponentRow.accepts_iff,
      GenericRow.accepts_iff, PortRow.accepts_iff, SignalRow.accepts_iff, InstanceRow.accepts_iff,
      DependencyRow.accepts_iff]
  rw [rows]
  exact ⟨fun ⟨cs, gs, ps, ss, is, ds⟩ => ⟨cs, gs, ps, ss, is, ds⟩,
    fun h => ⟨h.components, h.generics, h.ports, h.signals, h.instances, h.dependencies⟩⟩

theorem Tables.admits_iff {t : Tables} : Schema.tables.Admits t.json ↔ t.Conforms :=
  Shape.accepts_iff.symm.trans t.accepts_iff

end Rows

/-! ## Words of the source -/

theorem IsClass.contains {set : Notation.CharSet} {p : UInt8 → Bool} (h : IsClass set p) {c : Char}
    (ascii : c.toNat < 128) : set.contains c = p (byteOf c) := by
  rw [h.same, toNat_byteOf ascii, Char.ofNat_toNat]

theorem isIdentifier_of_isName {s : String} (h : IsName s) : IsIdentifier s := by
  obtain ⟨c, rest, split, letter, later⟩ := h.shape
  refine isIdentifier_iff_heads.mpr ⟨c, rest, split, ?_, fun x hx => ?_⟩
  · obtain ⟨ascii, byte⟩ := encodes_letter c letter
    rw [isClass_letters.contains ascii, isIdentifierStart, byte, Bool.true_or]
  · obtain ⟨ascii, byte⟩ := encodes_name x (later x hx)
    rw [isClass_names.contains ascii, byte]

/-- A positive number is written without leading zeros. -/
theorem heads_toDigits (n : Nat) (positive : 0 < n) : ∃ c rest, Nat.toDigits 10 n = c :: rest ∧
    positives.contains c = true ∧ ∀ x ∈ rest, decimals.contains x = true := by
  have lead : ∀ d < 10, 0 < d → positives.contains d.digitChar = true := by decide
  have digit : ∀ d < 10, decimals.contains d.digitChar = true := by decide
  induction n using Nat.strongRecOn with
  | ind n ih =>
    by_cases short : n < 10
    · exact ⟨_, [], Nat.toDigits_of_lt_base short, lead n short positive, by simp⟩
    · -- the digits of the quotient, then one more
      obtain ⟨c, rest, split, here, later⟩ := ih (n / 10) (by omega) (by omega)
      refine ⟨c, rest ++ [(n % 10).digitChar], ?_, here, ?_⟩
      · rw [Nat.toDigits_of_base_le (by decide) (Nat.le_of_not_lt short), split, List.cons_append]
      · rw [List.forall_mem_append, List.forall_mem_singleton]
        exact ⟨later, digit _ (Nat.mod_lt n (by decide))⟩

theorem isWidth_text {w : Width} (h : w.Lexical) : w.text = "" ∨ IsWidth w.text := by
  cases w with
  | scalar => exact .inl rfl
  | literal n =>
    obtain ⟨c, rest, split, here, later⟩ := heads_toDigits n h.1
    exact .inr (isWidth_iff_heads.mpr (.inl ⟨c, rest, Nat.toList_repr.trans split, here, later⟩))
  | generic name =>
    have like := isIdentifier_iff_heads.mp (isIdentifier_of_isName h)
    exact .inr (isWidth_iff_heads.mpr (.inr like))

theorem kindOf_listed (role : Role) : kindOf role ∈ ["signal", "variable", "const"] := by
  cases role <;> simp [kindOf]

theorem exists_binding {bs : List Binding} {g : String × String} (h : g ∈ genericValues bs) :
    ∃ b ∈ bs, b.name.name = g.1 := by
  rw [genericValues, List.mem_mergeSort] at h
  obtain ⟨b, hb, rfl⟩ := List.mem_map.mp (mem_of_mem_eraseDupsBy h)
  exact ⟨b, List.mem_reverse.mp hb, rfl⟩

/-! ## Tables of a design -/

section Component

variable {c : Component} (h : c.Lexical) (files : Option FileSet)

include h

theorem conforms_componentRow (order : Nat) : (componentRow files c order).Conforms := by
  refine ⟨isIdentifier_of_isName h.name, ?_⟩
  cases found : c.arch? with
  | none => exact .inl (by simp [componentRow, found])
  | some a =>
    have row : (componentRow files c order).arch = a.name := by simp [componentRow, found]
    rw [row]
    rcases (h.arch a found).name with name | word
    · exact .inr (isIdentifier_of_isName name)
    · -- the reserved words are identifiers all the same
      have words : ∀ w ∈ ["implementation", "verification"],
          isIdentifier (Bytes.ofString w) = true := by decide +kernel
      exact .inr (isIdentifier_ofString.mp (words _ word))

theorem conforms_genericRows : ∀ r ∈ genericRows c, r.Conforms := by
  intro r mem
  obtain ⟨d, hd, rfl⟩ := List.mem_map.mp mem
  exact ⟨isIdentifier_of_isName h.name, isIdentifier_of_isName (h.generics d hd).name⟩

theorem conforms_portRows : ∀ r ∈ portRows files c, r.Conforms := by
  intro r mem
  obtain ⟨d, hd, rfl⟩ := List.mem_map.mp mem
  have words := h.ports d hd
  exact ⟨isIdentifier_of_isName h.name, isIdentifier_of_isName words.name, isWidth_text words.width⟩

theorem conforms_signalRows : ∀ r ∈ signalRows c, r.Conforms := by
  intro r mem
  obtain ⟨d, hd, rfl⟩ := List.mem_map.mp mem
  have words := h.innerDecls d hd
  exact ⟨isIdentifier_of_isName h.name, isIdentifier_of_isName words.name, kindOf_listed d.role⟩

theorem conforms_instanceRows : ∀ r ∈ instanceRows files c, r.Conforms := by
  intro r mem
  obtain ⟨i, hi, rfl⟩ := List.mem_map.mp mem
  have words := h.instances i hi
  refine ⟨isIdentifier_of_isName h.name, isIdentifier_of_isName words.name,
    isIdentifier_of_isName words.type, fun g hg => ?_⟩
  obtain ⟨b, hb, name⟩ := exists_binding hg
  rw [← name]
  exact isIdentifier_of_isName (words.bindings b hb).name

end Component

/-- What the rows of all components are like, the rows of a table are. -/
theorem forall_mem_table {ρ : Type} {cs : List Component} {rows : Component → List ρ}
    {le : ρ → ρ → Bool} {p : ρ → Prop} (each : ∀ c ∈ cs, ∀ r ∈ rows c, p r) :
    ∀ r ∈ (cs.flatMap rows).mergeSort le, p r := by
  intro r mem
  obtain ⟨c, hc, row⟩ := List.mem_flatMap.mp (List.mem_mergeSort.mp mem)
  exact each c hc r row

/-- Whatever words a design is made of, its tables are as the schema asks. -/
theorem conforms_of_lexical {d : Design} (lexical : ∀ c ∈ d.components, c.Lexical)
    (files : Option FileSet) (top : String) : (extract files (d.check top)).Conforms := by
  have words : ∀ c ∈ passed (d.check top), c.Lexical := fun c mem => lexical c (mem_passed.mp mem).1
  have named : ∀ name ∈ d.names, IsIdentifier name := by
    intro name mem
    obtain ⟨c, hc, rfl⟩ := Design.exists_of_mem_names mem
    exact isIdentifier_of_isName (lexical c hc).name
  constructor
  case components =>
    intro r mem
    obtain ⟨n, inside, rfl⟩ := List.mem_mapIdx.mp mem
    exact conforms_componentRow (words _ (List.getElem_mem inside)) files n
  case generics => exact forall_mem_table fun c hc => conforms_genericRows (words c hc)
  case ports => exact forall_mem_table fun c hc => conforms_portRows (words c hc) files
  case signals => exact forall_mem_table fun c hc => conforms_signalRows (words c hc)
  case instances => exact forall_mem_table fun c hc => conforms_instanceRows (words c hc) files
  case dependencies =>
    intro r mem
    obtain ⟨ordered, used⟩ := (mem_dependencies files).mp mem
    exact ⟨named _ (Design.mem_order_iff.mp ordered).1, named _ (Design.mem_depNames.mp used).2⟩

/-- The tables of a design that was read have the shape that the schema asks for, whatever files
give the places and whatever the top-level component. -/
theorem extract_conforms {f : SourceFile} {keepText : Bool} {d : Design}
    (read : Design.parse f keepText = .ok d) (files : Option FileSet) (top : String) :
    Schema.tables.Admits (extract files (d.check top)).json :=
  Tables.admits_iff.mpr (conforms_of_lexical (Design.lexical_of_parse read) files top)

/-- A buffer with a generic for its width, and a component with an instance of it. -/
def bufferSource : SourceFile where
  id := 0
  path := "buffer.cdl"
  content := Bytes.ofString ("component Buffer { int W; port { input vec d[W]; output vec q[8]; } } " ++
    "component Top { verification arch { Buffer b = new Buffer(W = 8); } }")
  flags := 0

/-- The source as it is read. -/
def bufferDesign : Design where
  components := [
    ⟨"Buffer", ⟨0, 10, 16⟩, ⟨0, 0, 69⟩, 0, [
      .generic ⟨0, 19, 25⟩ ⟨.generic, "W", ⟨0, 23, 24⟩, .int, .scalar, ⟨0, 19, 24⟩⟩,
      .ports ⟨0, 26, 67⟩ [
        ⟨.port .input, "d", ⟨0, 43, 44⟩, .vec, .generic "W", ⟨0, 33, 47⟩⟩,
        ⟨.port .output, "q", ⟨0, 60, 61⟩, .vec, .literal 8, ⟨0, 49, 64⟩⟩]],
      [("d", .generic "W"), ("q", .literal 8)]⟩,
    ⟨"Top", ⟨0, 80, 83⟩, ⟨0, 70, 139⟩, 0, [
      .arch ⟨⟨0, 86, 137⟩, "verification", ⟨0, 86, 98⟩, [
        .inst ⟨0, 106, 135⟩ ⟨"b", ⟨0, 113, 114⟩, "Buffer", ⟨0, 106, 112⟩,
          [⟨⟨"W", ⟨0, 128, 129⟩⟩, .literal ⟨0, 132, 133⟩ ⟨.int, "8"⟩⟩]⟩]⟩], []⟩]
  distinct := by decide

/-- Both components pass, so the tables have rows for the instance and its generic. -/
theorem extract_conforms_buffer :
    (extract none (bufferDesign.check "")).instances =
        [⟨"Top", "b", "Buffer", [("W", "8")], 0⟩] ∧
      Schema.tables.Admits (extract none (bufferDesign.check "")).json := by
  have read : Design.parse bufferSource false = .ok bufferDesign :=
    Design.parse_of_toOption (by decide +kernel)
  exact ⟨by cbv, extract_conforms read none ""⟩

end CircuitCompiler.Facts
