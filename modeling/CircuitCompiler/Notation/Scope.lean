import CircuitCompiler.Notation.Parse

/-!
# Names of the notation

A name refers to a field, a local name or a variable around it, innermost first, or to one of the
names that are always there. `Decl.areSound` says that every name refers to something, that every
local name is used, and that preference is marked among options only.
-/

namespace CircuitCompiler.Notation

/-- The kinds of values and the functions that are always there. -/
def builtinNames : List String :=
  ["_", "string", "bytes", "bool", "int", "float", "number", "uint", "uint8", "int8", "uint16",
    "int16", "rune", "uint32", "int32", "uint64", "int64", "uint128", "int128", "float32",
    "float64", "len", "close", "and", "or", "div", "mod", "quo", "rem", "error"]

namespace Scope

/-- The names that declarations introduce for each other. -/
def declared : List Decl → List String
  | [] => []
  | .field l handle _ _ :: rest =>
    (if l.quoted then [] else [l.name]) ++ handle.toList ++ declared rest
  | .computed _ handle _ _ :: rest => handle.toList ++ declared rest
  | .bind s _ :: rest => s :: declared rest
  | _ :: rest => declared rest

/-- The local names that declarations introduce and that have to be used. -/
def locals : List Decl → List String
  | [] => []
  | .field _ handle _ _ :: rest | .computed _ handle _ _ :: rest => handle.toList ++ locals rest
  | .bind s _ :: rest => s :: locals rest
  | _ :: rest => locals rest

/-- The names that clauses introduce. -/
def clauseNames : List Clause → List String
  | [] => []
  | .forEach key value _ :: rest => value :: key.toList ++ clauseNames rest
  | .provided _ :: rest => clauseNames rest
  | .bind s _ :: rest => s :: clauseNames rest

mutual

/-- The names that an expression uses. -/
def uses : Expr → List String
  | .atom _ | .anything | .nothing => []
  | .name s => [s]
  | .record ds => declUses ds
  | .list items rest => itemUses items ++ (match rest with
    | some e => uses e
    | none => [])
  | .unary _ e | .slice e | .named _ e | .paren e | .select e _ => uses e
  | .binary _ a b | .index a b => uses a ++ uses b
  | .choice os => optionUses os
  | .call f args => uses f ++ itemUses args
  | .template _ parts => itemUses parts
  | .each clauses body => clauseUses clauses ++ declUses body

/-- The names that expressions use. -/
def itemUses : List Expr → List String
  | [] => []
  | e :: rest => uses e ++ itemUses rest

/-- The names that options use. -/
def optionUses : List (Bool × Expr) → List String
  | [] => []
  | (_, e) :: rest => uses e ++ optionUses rest

/-- The names that declarations use. -/
def declUses : List Decl → List String
  | [] => []
  | .field _ _ _ e :: rest | .embed e :: rest | .bind _ e :: rest => uses e ++ declUses rest
  | .computed l _ _ e :: rest | .pattern _ l e :: rest => uses l ++ uses e ++ declUses rest
  | .further :: rest => declUses rest

/-- The names that clauses use. -/
def clauseUses : List Clause → List String
  | [] => []
  | .forEach _ _ e :: rest | .provided e :: rest | .bind _ e :: rest => uses e ++ clauseUses rest

end

mutual

/-- Whether an expression is sound where some names are known. -/
def isSound (known : List String) : Expr → Bool
  | .atom _ | .anything | .nothing => true
  | .name s => known.contains s
  | .record ds => areSound (declared ds ++ known) ds && (locals ds).all (declUses ds).contains
  | .list items rest => itemsSound known items && (match rest with
    | some e => isSound known e
    | none => true)
  | .unary op e => op != .prefer && isSound known e
  | .slice e | .paren e | .select e _ => isSound known e
  | .named s e => isSound (s :: known) e && (uses e).contains s
  | .binary _ a b | .index a b => isSound known a && isSound known b
  | .choice os => optionsSound known os
  | .call f args => isSound known f && itemsSound known args
  | .template _ parts => itemsSound known parts
  | .each clauses body =>
    clausesSound known clauses && areSound (declared body ++ clauseNames clauses ++ known) body &&
      (locals body).all (declUses body).contains

/-- Whether expressions are sound. -/
def itemsSound (known : List String) : List Expr → Bool
  | [] => true
  | e :: rest => isSound known e && itemsSound known rest

/-- Whether options are sound. -/
def optionsSound (known : List String) : List (Bool × Expr) → Bool
  | [] => true
  | (_, e) :: rest => isSound known e && optionsSound known rest

/-- Whether declarations are sound where some names are known, their own among them. -/
def areSound (known : List String) : List Decl → Bool
  | [] => true
  | .field _ _ _ e :: rest | .embed e :: rest | .bind _ e :: rest =>
    isSound known e && areSound known rest
  | .computed l _ _ e :: rest => isSound known l && isSound known e && areSound known rest
  | .pattern binder l e :: rest =>
    isSound known l && isSound (binder.toList ++ known) e && binder.all (uses e).contains &&
      areSound known rest
  | .further :: rest => areSound known rest

/-- Whether clauses are sound; each knows the names of those before it. -/
def clausesSound (known : List String) : List Clause → Bool
  | [] => true
  | .forEach key value e :: rest =>
    isSound known e && clausesSound (value :: key.toList ++ known) rest
  | .provided e :: rest => isSound known e && clausesSound known rest
  | .bind s e :: rest => isSound known e && clausesSound (s :: known) rest

end

end Scope

/-- Whether the declarations of a file are sound. -/
def Decl.areSound (ds : List Decl) : Bool := Scope.isSound builtinNames (.record ds)

end CircuitCompiler.Notation
