import CircuitCompiler.Facts.Schema
import CircuitCompiler.Proofs.Patterns
import CircuitCompiler.Proofs.Spaced

/-!
# What a schema admits

The check of a value against a shape works on bytes. What it decides is a relation that says of each
shape which values have it: identifiers and widths are the texts that match their patterns, and a
record has all fields that it must have and none that its shape does not name.

* `Facts.Shape.isIdentifier_iff`, `Facts.Shape.isWidth_iff`: the patterns of identifiers and widths;
* `Facts.Shape.Admits`: the values of a shape;
* `Facts.Shape.accepts_iff`: the check accepts these values.
-/

namespace CircuitCompiler

/-! ## Bytes of words -/

theorem Bytes.ofString_injective {s t : String} (h : ofString s = ofString t) : s = t := by
  have data : ∀ s : String, ofString s = s.toByteArray.data.toList := fun s =>
    (toList_loop s.toByteArray 0 []).trans (by simp)
  rw [data, data] at h
  exact String.toByteArray_inj.mp (ByteArray.ext (Array.toList_inj.mp h))

theorem toNat_latin (b : UInt8) : (Char.ofNat b.toNat).toNat = b.toNat := by
  revert b
  exact forall_byte (by decide +kernel)

/-- ASCII bytes are those of the text that they stand for. -/
theorem Bytes.ofString_latin {b : Bytes} (ascii : ∀ x ∈ b, x.toNat < 128) :
    ofString b.latin = b := by
  have plain : IsAscii b.latin := by
    intro c hc
    rw [toList_latin] at hc
    obtain ⟨x, hx, rfl⟩ := List.mem_map.mp hc
    rw [toNat_latin]
    exact ascii x hx
  rw [ofString_ascii plain, toList_latin, List.map_map]
  refine (List.map_congr_left fun x _ => ?_).trans (List.map_id b)
  rw [Function.comp_apply, byteOf, toNat_latin, UInt8.ofNat_toNat]
  rfl

namespace Facts

open Notation (CharSet)
open Notation.Pattern (Heads IsLike)
open Text (Json)

/-! ## Texts of the schema -/

/-- What identifiers look like. -/
def IsIdentifier : String → Prop := IsLike "^[A-Za-z_][A-Za-z0-9_]*$"

/-- What widths look like. -/
def IsWidth : String → Prop := IsLike "^([1-9][0-9]*|[A-Za-z_][A-Za-z0-9_]*)$"

/-- What identifiers begin with. -/
def letters : CharSet := { runs := [(65, 90), (97, 122), (95, 95)] }

/-- What identifiers go on with. -/
def names : CharSet := { runs := [(65, 90), (97, 122), (48, 57), (95, 95)] }

def positives : CharSet := { runs := [(49, 57)] }

def decimals : CharSet := { runs := [(48, 57)] }

section Like

open Notation.Pattern

theorem isIdentifier_iff_heads {s : String} : IsIdentifier s ↔ Heads letters names s := by
  have read : parse? "^[A-Za-z_][A-Za-z0-9_]*$" = some (.sequence .start (.sequence (.char letters)
      (.sequence (.many (.char names)) (.sequence .finish .empty)))) := by cbv
  unfold IsIdentifier IsLike
  rw [heads_iff]
  simp only [read, Option.some.injEq, exists_eq_left', matches_sequence_iff, matches_start_iff,
    matches_char_iff, matches_finish_iff, matches_empty_iff]
  -- a match starts at 0, is at 1 behind the first character and then runs to the end
  constructor
  · rintro ⟨i, -, k, a, ⟨rfl, rfl⟩, b, ⟨here, rfl⟩, c, run, d, ⟨rfl, rfl⟩, rfl⟩
    exact ⟨here, run⟩
  · rintro ⟨here, run⟩
    exact ⟨0, Nat.zero_le _, _, 0, ⟨rfl, rfl⟩, _, ⟨here, rfl⟩, _, run, _, ⟨rfl, rfl⟩, rfl⟩

theorem isWidth_iff_heads {s : String} :
    IsWidth s ↔ Heads positives decimals s ∨ Heads letters names s := by
  have read : parse? "^([1-9][0-9]*|[A-Za-z_][A-Za-z0-9_]*)$" = some (.sequence .start (.sequence
      (.either (.sequence (.char positives) (.sequence (.many (.char decimals)) .empty))
        (.sequence (.char letters) (.sequence (.many (.char names)) .empty)))
      (.sequence .finish .empty))) := by cbv
  unfold IsWidth IsLike
  rw [heads_iff, heads_iff]
  simp only [read, Option.some.injEq, exists_eq_left', matches_sequence_iff, matches_start_iff,
    matches_char_iff, matches_finish_iff, matches_empty_iff, matches_either_iff]
  constructor
  · rintro ⟨i, -, k, a, ⟨rfl, rfl⟩, b, alternatives, c, ⟨rfl, rfl⟩, rfl⟩
    refine alternatives.imp ?_ ?_
    all_goals
      rintro ⟨d, ⟨here, rfl⟩, e, run, rfl⟩
      exact ⟨here, run⟩
  · intro h
    refine ⟨0, Nat.zero_le _, _, 0, ⟨rfl, rfl⟩, _, ?_, _, ⟨rfl, rfl⟩, rfl⟩
    refine h.imp ?_ ?_
    all_goals
      rintro ⟨here, run⟩
      exact ⟨_, ⟨here, rfl⟩, _, run, rfl⟩

end Like

/-- The bytes of a class are those of the characters of a set, all of them ASCII. -/
structure IsClass (set : CharSet) (p : UInt8 → Bool) : Prop where
  chars : ∀ c, set.contains c = true → c.toNat < 128
  same : ∀ b, p b = set.contains (Char.ofNat b.toNat)

theorem IsClass.ascii {set : CharSet} {p : UInt8 → Bool} (h : IsClass set p) {b : UInt8}
    (here : p b = true) : b.toNat < 128 := by
  rw [← toNat_latin]
  exact h.chars _ (h.same b ▸ here)

/-- Bytes are of two classes where they are those of a text of the two sets. -/
theorem heads_iff_bytes {first others : CharSet} {p q : UInt8 → Bool} (begins : IsClass first p)
    (goesOn : IsClass others q) {bytes : Bytes} :
    (∃ s, bytes = Bytes.ofString s ∧ Heads first others s) ↔
      ∃ b rest, bytes = b :: rest ∧ p b = true ∧ ∀ x ∈ rest, q x = true := by
  constructor
  · rintro ⟨s, rfl, c, rest, split, here, later⟩
    have ascii : IsAscii s := by
      intro x hx
      rw [split, List.mem_cons] at hx
      rcases hx with rfl | hx
      · exact begins.chars x here
      · exact goesOn.chars x (later x hx)
    have same := Bytes.ofString_ascii ascii
    rw [IsAscii, split, List.forall_mem_cons] at ascii
    refine ⟨byteOf c, rest.map byteOf, by rw [same, split, List.map_cons], ?_, ?_⟩
    · rwa [begins.same, toNat_byteOf ascii.1, Char.ofNat_toNat]
    · refine List.forall_mem_map.mpr fun x hx => ?_
      rw [goesOn.same, toNat_byteOf (ascii.2 x hx), Char.ofNat_toNat]
      exact later x hx
  · rintro ⟨b, rest, rfl, here, later⟩
    have ascii : ∀ x ∈ b :: rest, x.toNat < 128 := by
      rw [List.forall_mem_cons]
      exact ⟨begins.ascii here, fun x hx => goesOn.ascii (later x hx)⟩
    refine ⟨Bytes.latin (b :: rest), (Bytes.ofString_latin ascii).symm, Char.ofNat b.toNat,
      rest.map fun x => Char.ofNat x.toNat, Bytes.toList_latin _, ?_, ?_⟩
    · rwa [← begins.same]
    · refine List.forall_mem_map.mpr fun x hx => ?_
      rw [← goesOn.same]
      exact later x hx

/-- What sets of ASCII characters contain is ASCII. -/
theorem ascii_of_contains {set : CharSet} (plain : set.inverted = false)
    (low : ∀ r ∈ set.runs, r.2 < 128) (c : Char) (h : set.contains c = true) : c.toNat < 128 := by
  simp only [CharSet.contains, plain, Bool.bne_false, List.any_eq_true, Bool.and_eq_true,
    decide_eq_true_eq] at h
  obtain ⟨r, hr, -, below⟩ := h
  exact Nat.lt_of_le_of_lt below (low r hr)

theorem isClass_letters : IsClass letters Shape.isIdentifierStart where
  chars := ascii_of_contains rfl (by decide)
  same := forall_byte (by decide +kernel)

theorem isClass_names : IsClass names Scan.isNameByte where
  chars := ascii_of_contains rfl (by decide)
  same := forall_byte (by decide +kernel)

theorem isClass_positives : IsClass positives fun b => Scan.isDecimal b && b != 48 where
  chars := ascii_of_contains rfl (by decide)
  same := forall_byte (by decide +kernel)

theorem isClass_decimals : IsClass decimals Scan.isDecimal where
  chars := ascii_of_contains rfl (by decide)
  same := forall_byte (by decide +kernel)

namespace Shape

/-- Bytes are taken for an identifier if they are those of a text that matches the pattern. -/
theorem isIdentifier_iff {bytes : Bytes} :
    isIdentifier bytes = true ↔ ∃ s, bytes = Bytes.ofString s ∧ IsIdentifier s := by
  simp only [isIdentifier_iff_heads, heads_iff_bytes isClass_letters isClass_names]
  cases bytes with
  | nil => simp [isIdentifier]
  | cons b rest => simp [isIdentifier]

theorem isPositive_iff {bytes : Bytes} : isPositive bytes = true ↔
    ∃ s, bytes = Bytes.ofString s ∧ Heads positives decimals s := by
  rw [heads_iff_bytes isClass_positives isClass_decimals]
  cases bytes with
  | nil => simp [isPositive]
  | cons b rest => simp [isPositive]

/-- Bytes are taken for a width if they are those of a text that matches the pattern. -/
theorem isWidth_iff {bytes : Bytes} : (isPositive bytes || isIdentifier bytes) = true ↔
    ∃ s, bytes = Bytes.ofString s ∧ IsWidth s := by
  rw [Bool.or_eq_true, isPositive_iff, isIdentifier_iff, ← exists_or]
  simp only [isWidth_iff_heads, isIdentifier_iff_heads, and_or_left]

theorem isIdentifier_ofString {s : String} :
    isIdentifier (Bytes.ofString s) = true ↔ IsIdentifier s := by
  rw [isIdentifier_iff]
  exact ⟨fun ⟨_, same, like⟩ => Bytes.ofString_injective same ▸ like, fun like => ⟨s, rfl, like⟩⟩

theorem isWidth_ofString {s : String} :
    (isPositive (Bytes.ofString s) || isIdentifier (Bytes.ofString s)) = true ↔ IsWidth s := by
  rw [isWidth_iff]
  exact ⟨fun ⟨_, same, like⟩ => Bytes.ofString_injective same ▸ like, fun like => ⟨s, rfl, like⟩⟩

/-! ## Values of a shape -/

/-- The values that have a shape. -/
inductive Admits : Shape → Json → Prop
  | text (b : Bytes) : Admits .text (.string b)
  | oneOf {words : List String} {s : String} (listed : s ∈ words) :
      Admits (.oneOf words) (.ofString s)
  | identifier {s : String} (like : IsIdentifier s) : Admits .identifier (.ofString s)
  | width {s : String} (like : IsWidth s) : Admits .width (.ofString s)
  | count {s : String} (some : s ≠ "") (digits : ∀ c ∈ s.toList, c.isDigit = true) :
      Admits .count (.number s)
  | listOf {item : Shape} {items : List Json} (each : ∀ j ∈ items, Admits item j) :
      Admits (.listOf item) (.array items)
  | mapOf {value : Shape} {given : List (String × Json)} (names : ∀ g ∈ given, IsIdentifier g.1)
      (each : ∀ g ∈ given, Admits value g.2) : Admits (.mapOf value) (.object given)
  | record {fields : List (String × Bool × Shape)} {given : List (String × Json)}
      (shape : String → Shape) (there : ∀ f ∈ fields, f.2.1 = true → f.1 ∈ given.map (·.1))
      (known : ∀ g ∈ given, fieldShape? fields g.1 = some (shape g.1))
      (each : ∀ g ∈ given, Admits (shape g.1) g.2) : Admits (.record fields) (.object given)

theorem acceptsAll_iff {s : Shape} {items : List Json} :
    s.acceptsAll items = true ↔ ∀ j ∈ items, s.accepts j = true := by
  induction items with
  | nil => simp [acceptsAll]
  | cons j rest ih => rw [acceptsAll, Bool.and_eq_true, ih, List.forall_mem_cons]

theorem acceptsFields_iff {shapeOf : String → Option Shape} {given : List (String × Json)} :
    acceptsFields shapeOf given = true ↔
      ∀ g ∈ given, ∃ s, shapeOf g.1 = some s ∧ s.accepts g.2 = true := by
  induction given with
  | nil => simp [acceptsFields]
  | cons g rest ih =>
    rw [acceptsFields, Bool.and_eq_true, ih, List.forall_mem_cons]
    refine and_congr_left fun _ => ?_
    cases shapeOf g.1 with
    | none => simp
    | some s => simp

theorem complete_iff {fields : List (String × Bool × Shape)} {given : List (String × Json)} :
    complete fields given = true ↔ ∀ f ∈ fields, f.2.1 = true → f.1 ∈ given.map (·.1) := by
  simp only [complete, List.all_eq_true, Bool.or_eq_true, Bool.not_eq_true', List.any_eq_true,
    beq_iff_eq, List.mem_map]
  refine forall₂_congr fun f _ => ?_
  cases f.2.1 <;> simp

theorem isCount_iff {s : String} :
    isCount s = true ↔ s ≠ "" ∧ ∀ c ∈ s.toList, c.isDigit = true := by
  rw [isCount, Bool.and_eq_true, Bool.not_eq_true', ← Bool.not_eq_true, String.isEmpty_iff,
    String.all_bool_eq, List.all_eq_true]

/-- What the check accepts has the shape. -/
theorem admits_of_accepts : ∀ (j : Json) (s : Shape), s.accepts j = true → s.Admits j
  | .null, s, h => by simp [accepts] at h
  | .bool b, s, h => by simp [accepts] at h
  | .number n, s, h => by
    cases s <;> simp only [accepts, Bool.false_eq_true] at h
    obtain ⟨some, digits⟩ := isCount_iff.mp h
    exact .count some digits
  | .string b, s, h => by
    cases s <;> simp only [accepts, Bool.false_eq_true] at h
    case text => exact .text b
    case oneOf words =>
      obtain ⟨w, listed, same⟩ := List.any_eq_true.mp h
      exact eq_of_beq same ▸ .oneOf listed
    case identifier =>
      obtain ⟨s, rfl, like⟩ := isIdentifier_iff.mp h
      exact .identifier like
    case width =>
      obtain ⟨s, rfl, like⟩ := isWidth_iff.mp h
      exact .width like
  | .array items, s, h => by
    cases s <;> simp only [accepts, Bool.false_eq_true] at h
    case listOf item =>
      exact .listOf fun j mem => admits_of_accepts j item (acceptsAll_iff.mp h j mem)
  | .object given, s, h => by
    cases s <;> simp only [accepts, Bool.false_eq_true] at h
    case mapOf value =>
      have known : ∀ g ∈ given, IsIdentifier g.1 ∧ value.accepts g.2 = true := by
        intro g mem
        obtain ⟨s, found, accepted⟩ := acceptsFields_iff.mp h g mem
        obtain ⟨like, same⟩ := Option.ite_none_right_eq_some.mp found
        cases same
        exact ⟨isIdentifier_ofString.mp like, accepted⟩
      exact .mapOf (fun g mem => (known g mem).1) fun g mem =>
        admits_of_accepts g.2 value (known g mem).2
    case record fields =>
      obtain ⟨there, known⟩ := Bool.and_eq_true_iff.mp h
      have known := acceptsFields_iff.mp known
      let shape (name : String) : Shape := (fieldShape? fields name).getD .text
      have shaped : ∀ g ∈ given, fieldShape? fields g.1 = some (shape g.1) ∧
          (shape g.1).accepts g.2 = true := by
        intro g mem
        obtain ⟨s, found, accepted⟩ := known g mem
        simp only [shape, found, Option.getD_some, accepted, and_self]
      exact .record shape (complete_iff.mp there) (fun g mem => (shaped g mem).1) fun g mem =>
        admits_of_accepts g.2 (shape g.1) (shaped g mem).2
termination_by j => sizeOf j
decreasing_by
  · have := List.sizeOf_lt_of_mem mem
    simp only [Json.array.sizeOf_spec]
    omega
  all_goals
    have := List.sizeOf_lt_of_mem mem
    have : sizeOf g.2 < sizeOf g := by
      cases g
      simp
    simp only [Json.object.sizeOf_spec]
    omega

theorem accepts_of_admits {s : Shape} {j : Json} (h : s.Admits j) : s.accepts j = true := by
  induction h with
  | text b => rfl
  | oneOf listed => exact List.any_eq_true.mpr ⟨_, listed, beq_self_eq_true _⟩
  | identifier like => exact isIdentifier_ofString.mpr like
  | width like => exact isWidth_ofString.mpr like
  | count some digits => exact isCount_iff.mpr ⟨some, digits⟩
  | listOf _ each => exact acceptsAll_iff.mpr each
  | mapOf names _ each =>
    refine acceptsFields_iff.mpr fun g mem => ⟨_, if_pos ?_, each g mem⟩
    exact isIdentifier_ofString.mpr (names g mem)
  | record shape there known _ each =>
    refine Bool.and_eq_true_iff.mpr ⟨complete_iff.mpr there, acceptsFields_iff.mpr ?_⟩
    exact fun g mem => ⟨shape g.1, known g mem, each g mem⟩

/-- The check accepts the values of the shape. -/
theorem accepts_iff {s : Shape} {j : Json} : s.accepts j = true ↔ s.Admits j :=
  ⟨admits_of_accepts j s, accepts_of_admits⟩

end Shape

end Facts
end CircuitCompiler
