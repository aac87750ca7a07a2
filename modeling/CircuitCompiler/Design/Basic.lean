import CircuitCompiler.Component.Basic

/-!
# Designs

A design holds the components of one run under distinct names, in the order they were registered.
-/

namespace CircuitCompiler

/-- Components under distinct names, in the order they were registered. -/
structure Design where
  components : List Component := []
  distinct : (components.map (·.name)).Nodup := by exact List.nodup_nil
  deriving DecidableEq, Repr

instance : Inhabited Design := ⟨{}⟩

namespace Design

/-- The component with a name. -/
def get? (d : Design) (name : String) : Option Component :=
  d.components.find? fun c => c.name == name

/-- Whether a name is taken. -/
def has (d : Design) (name : String) : Bool := d.components.any fun c => c.name == name

theorem has_eq_true_iff {d : Design} {name : String} :
    d.has name = true ↔ name ∈ d.components.map (·.name) := by
  simp [has]

/-- Names stay distinct when one that is not taken joins them. -/
theorem distinct_append {d : Design} {c : Component} (free : ¬d.has c.name = true) :
    ((d.components ++ [c]).map (·.name)).Nodup := by
  rw [has_eq_true_iff] at free
  rw [List.map_append, List.map_singleton, List.nodup_append]
  refine ⟨d.distinct, by simp, ?_⟩
  rintro a taken b new rfl
  rw [List.mem_singleton] at new
  exact free (new ▸ taken)

/-- Registers a component, unless its name is taken. -/
def add? (d : Design) (c : Component) : Option Design :=
  if taken : d.has c.name then none else some ⟨d.components ++ [c], distinct_append taken⟩

/-- The names in registration order. -/
def names (d : Design) : List String := d.components.map (·.name)

end Design

/-- Whether `a` comes before or is `b`, character by character. -/
def nameLe (a b : String) : Bool := decide (a ≤ b)

/-- Names in the order of their characters. -/
def sortNames (names : List String) : List String := names.mergeSort nameLe

/-- The names of a design in the order of their characters. -/
def Design.sortedNames (d : Design) : List String := sortNames d.names

end CircuitCompiler
