import CircuitCompiler.Trace.Event

/-!
# Trace spans

A run is traced as a forest of spans. The events of a forest at a level are the begins and ends of
the spans that the level admits, numbered in the order in which they begin; what lies inside a span
that is not admitted counts as lying nowhere.
-/

namespace CircuitCompiler.Trace

/-- A span with the spans inside it. -/
inductive Span where
  | mk (granularity : Granularity) (name detail : String) (extra : List (String × String))
    (inner : List Span)
  deriving Repr, Inhabited

namespace Span

/-- A span without anything inside. -/
def leaf (granularity : Granularity) (name detail : String) : Span :=
  mk granularity name detail [] []

mutual

/-- The events of a span inside the span numbered `parent`, and the next free number. -/
def events (level : Level) (parent next : Nat) : Span → List Event × Nat
  | mk granularity name detail extra inner =>
    if level.admits granularity then
      let (within, after) := eventsAll level next (next + 1) inner
      ({ mark := .start, granularity, name, span := next, parent } :: within ++
        [{ mark := .stop, granularity, name, detail, span := next, parent, extra }], after)
    else eventsAll level 0 next inner

/-- The events of spans one after the other. -/
def eventsAll (level : Level) (parent next : Nat) : List Span → List Event × Nat
  | [] => ([], next)
  | s :: rest =>
    let (first, next) := s.events level parent next
    let (more, next) := eventsAll level parent next rest
    (first ++ more, next)

end

/-- The events of a forest, numbered from one. -/
def eventsOf (level : Level) (spans : List Span) : List Event := (eventsAll level 0 1 spans).1

end Span
end CircuitCompiler.Trace
