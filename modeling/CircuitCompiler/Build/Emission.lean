import CircuitCompiler.Build.Cache
import CircuitCompiler.Build.Key
import CircuitCompiler.Vhdl.Emit

/-!
# Emission

The second half of a build: VHDL for every component that passed the check, each behind those it
depends on. An output that the cache has is taken from there; a new one is stored. A component that
cannot be emitted is dropped and the others go on.
-/

namespace CircuitCompiler.Build

/-- The generated VHDL of one component. -/
structure Output where
  name : String
  /-- The path of the source. -/
  source : String
  vhdl : String
  cached : Bool
  key : Digest
  deriving DecidableEq

/-- What became of a component. -/
structure Emitted where
  name : String
  result : Except CompileError Output

namespace Emitted

/-- Whether the output came from the cache. -/
def cached (e : Emitted) : Bool :=
  match e.result with
  | .ok o => o.cached
  | .error _ => false

end Emitted

/-- The state of emission: the cache, if there is one, and the generator. -/
structure Emitter where
  cache? : Option Cache
  generator : Vhdl.Generator

namespace Emitter

/-- The stored output of a key. -/
def stored? (s : Emitter) (key : Digest) : Option CachedUnit :=
  s.cache?.bind fun c => match c.get key with
    | .hit u => some u
    | .miss | .unreadable => none

/-- The indentation that is chosen where none is given. -/
def defaultIndent : Int := 4

/-- Emits one component. -/
def emit (s : Emitter) (c : Component) (source : String) (key : Digest) : Emitted × Emitter :=
  match s.stored? key with
  | some u => (⟨c.name, .ok ⟨c.name, source, u.vhdl, true, key⟩⟩, s)
  | none =>
    match s.generator.emit c with
    | (.error e, g) => (⟨c.name, .error e⟩, { s with generator := g })
    | (.ok vhdl, g) =>
      (⟨c.name, .ok ⟨c.name, source, vhdl, false, key⟩⟩,
        { cache? := s.cache?.map (·.put key c.name source vhdl), generator := g })

/-- A component to emit, with the path of its source and its key. -/
structure Job where
  component : Component
  source : String
  key : Digest

/-- Emits components one after the other. -/
def emitAll (s : Emitter) : List Job → List Emitted × Emitter
  | [] => ([], s)
  | j :: rest =>
    let (first, s') := s.emit j.component j.source j.key
    let (more, s'') := emitAll s' rest
    (first :: more, s'')

end Emitter

/-- The result of emission. -/
structure Emission where
  emitted : List Emitted
  cache? : Option Cache

namespace Analysis

/-- What there is to emit: the components that passed the check, in their order. -/
def jobs (a : Analysis) (indent : Int) : List Emitter.Job :=
  let keys := a.keys indent
  a.verdict.order.filterMap fun name => do
    let c ← a.design.get? name
    let k := (keys.find? fun k => k.name == name).map (·.key)
    some ⟨c, ((a.chunk? name).map (·.path)).getD "", k.getD .zero⟩

/-- Emits the components that passed the check. -/
def emit (a : Analysis) (indent : Int) (cache? : Option Cache) : Emission :=
  let indent := if indent = 0 then Emitter.defaultIndent else indent
  let (emitted, s) := Emitter.emitAll ⟨cache?, { library := some a.design, indent }⟩ (a.jobs indent)
  ⟨emitted, s.cache?⟩

end Analysis

namespace Emission

/-- The outputs in order. -/
def outputs (e : Emission) : List Output := e.emitted.filterMap fun x => x.result.toOption

/-- The components that could not be emitted, in order. -/
def errors (e : Emission) : List (String × CompileError) :=
  e.emitted.filterMap fun x => match x.result with
    | .error err => some (x.name, err)
    | .ok _ => none

/-- The reports on progress, in order. -/
def progress (e : Emission) : List Progress :=
  e.emitted.flatMap fun x => [.plain x.name .emit .working,
    match x.result with
    | .error err => .failed x.name .emit err
    | .ok o => .plain x.name .emit (if o.cached then .cached else .done)]

/-- The remark on what was emitted. -/
def note (e : Emission) : String :=
  toString e.outputs.length ++ " units, " ++
    toString (e.outputs.filter (·.cached)).length ++ " cached"

end Emission
end CircuitCompiler.Build
