import CircuitCompiler.Notation.Expr
import CircuitCompiler.Notation.Lexeme

/-!
# Reading the notation

From lexemes to the declarations of a file. A declaration begins with an expression; a name, a
quoted text, a parenthesis or a list followed by a colon is the label of a field, and everything
else stands in the record without a label. Items of a list are divided by written commas, all else
by any.
-/

namespace CircuitCompiler.Notation

namespace Parse

/-! ## Steps -/

/-- Passes a mark. -/
def expect? (m : String) : List Lexeme → Option (List Lexeme)
  | .mark n :: rest => if m == n then some rest else none
  | _ => none

/-- Whether the lexemes begin with one of some marks. -/
def startsWith (ms : List String) : List Lexeme → Bool
  | .mark m :: _ => ms.contains m
  | _ => false

/-- Passes the end of a declaration: a comma, or nothing before the end of the record. -/
def endDecl? : List Lexeme → Option (List Lexeme)
  | [] => some []
  | .comma _ :: rest => some rest
  | .mark "\x7d" :: rest => some (.mark "\x7d" :: rest)
  | _ => none

/-- The words that are not names. -/
def keywords : List String := ["for", "in", "if", "let", "null", "true", "false", "func"]

/-- Passes a name that is no keyword. -/
def name? : List Lexeme → Option (String × List Lexeme)
  | .name s :: rest => if keywords.contains s then none else some (s, rest)
  | _ => none

/-- The text behind remarks. -/
def skipRemarks : List Lexeme → List Lexeme
  | .remark :: rest => skipRemarks rest
  | ls => ls

/-- Passes a comma, if there is one. -/
def skipComma : List Lexeme → List Lexeme
  | .comma _ :: rest => rest
  | ls => ls

/-- Whether a keyword is used as a name here. -/
def isPlainName : List Lexeme → Bool
  | [] | .comma _ :: _ => true
  | ls => startsWith [":", "::", "=", "?"] ls

/-- The options of a choice; the options of options are options. -/
def options : Expr → List (Bool × Expr)
  | .choice os => os
  | .unary .prefer e => (options e).map fun o => (true, o.2)
  | e => [(false, e)]

/-- An operator with two operands applied. -/
def apply (op : BinaryOp) (a b : Expr) : Expr :=
  if op == .either then .choice (options a ++ options b) else .binary op a b

/-- The operator with two operands at the front. -/
def operator? : List Lexeme → Option ((BinaryOp × Nat) × List Lexeme)
  | .mark m :: rest => (BinaryOp.table.lookup m).map (·, rest)
  | .name s :: rest => (BinaryOp.named.lookup s).map fun op => ((op, 7), rest)
  | _ => none

/-! ## Labels -/

/-- The declaration of a field from its label. A name of an underscore is no label, and names that
begin with two are reserved. -/
def field? (label : Expr) (handle : Option String) (presence : Presence) (value : Expr) :
    Option Decl :=
  match label with
  | .name s =>
    if s == "_" || s.startsWith "__" then none else some (.field ⟨s, false⟩ handle presence value)
  | .atom (.string b) => some (.field ⟨b.text, true⟩ handle presence value)
  | .atom .null => some (.field ⟨"null", false⟩ handle presence value)
  | .atom (.bool b) => some (.field ⟨if b then "true" else "false", false⟩ handle presence value)
  | .template false _ | .paren _ => some (.computed label handle presence value)
  | .list [.named s e] none => some (.pattern (some s) e value)
  | .list [e] none => some (.pattern handle e value)
  | _ => none

/-- Whether an expression can be a label. -/
def isLabel : Expr → Bool
  | .name _ | .template false _ | .paren _ | .list _ _ | .atom .null | .atom (.bool _) => true
  | .atom (.string _) => true
  | _ => false

/-- Passes the mark of a field that need not be there. -/
def presence (ls : List Lexeme) : Presence × List Lexeme :=
  match ls with
  | .mark "?" :: rest => (.optional, rest)
  | .mark "!" :: rest => (.required, rest)
  | _ => (.present, ls)

/-! ## Expressions and declarations -/

mutual

/-- An expression whose operators bind at least so tightly. -/
def binary? : Nat → Nat → List Lexeme → Option (Expr × List Lexeme)
  | 0, _, _ => none
  | fuel + 1, least, ls => do
    let (e, rest) ← unary? fuel ls
    binaryTail? fuel least e rest

/-- The operators behind an operand. -/
def binaryTail? : Nat → Nat → Expr → List Lexeme → Option (Expr × List Lexeme)
  | 0, _, _, _ => none
  | fuel + 1, least, a, ls =>
    match operator? ls with
    | some ((op, tightness), rest) =>
      if tightness < least then some (a, ls)
      else do
        let (b, rest) ← binary? fuel (tightness + 1) rest
        binaryTail? fuel least (apply op a b) rest
    | none => some (a, ls)

/-- An expression behind operators with one operand. -/
def unary? : Nat → List Lexeme → Option (Expr × List Lexeme)
  | 0, _ => none
  | fuel + 1, ls =>
    match ls with
    | .mark m :: rest =>
      match UnaryOp.table.lookup m with
      | some op => do
        let (e, rest) ← unary? fuel rest
        some (.unary op e, rest)
      | none => do
        let (e, rest) ← operand? fuel ls
        suffixes? fuel e rest
    | _ => do
      let (e, rest) ← operand? fuel ls
      suffixes? fuel e rest

/-- Selections, indices and arguments behind an operand. -/
def suffixes? : Nat → Expr → List Lexeme → Option (Expr × List Lexeme)
  | 0, _, _ => none
  | fuel + 1, e, ls =>
    match ls with
    | .mark "." :: .name s :: rest => suffixes? fuel (.select e ⟨s, false⟩) rest
    | .mark "." :: .quoted false b .closed :: rest => suffixes? fuel (.select e ⟨b.text, true⟩) rest
    | .mark "." :: _ => none
    | .mark "[" :: .mark ":" :: rest => do
      let rest ← sliceEnd? fuel rest
      suffixes? fuel (.slice e) rest
    | .mark "[" :: rest => do
      let (i, rest) ← binary? fuel 1 rest
      match rest with
      | .mark "]" :: rest => suffixes? fuel (.index e i) rest
      | .mark ":" :: rest =>
        let rest ← sliceEnd? fuel rest
        suffixes? fuel (.slice e) rest
      | _ => none
    | .mark "(" :: rest => do
      let (args, rest) ← arguments? fuel rest
      suffixes? fuel (.call e args) rest
    | _ => some (e, ls)

/-- The upper bound of a slice, if there is one, and its bracket. -/
def sliceEnd? : Nat → List Lexeme → Option (List Lexeme)
  | 0, _ => none
  | fuel + 1, ls =>
    match ls with
    | .mark "]" :: rest => some rest
    | _ => do
      let (_, rest) ← binary? fuel 1 ls
      expect? "]" rest

/-- Arguments up to their parenthesis. -/
def arguments? : Nat → List Lexeme → Option ((List Expr) × List Lexeme)
  | 0, _ => none
  | fuel + 1, ls =>
    match ls with
    | .mark ")" :: rest => some ([], rest)
    | _ => do
      let (e, rest) ← binary? fuel 1 ls
      match rest with
      | .comma _ :: rest =>
        let (es, rest) ← arguments? fuel rest
        some (e :: es, rest)
      | .mark ")" :: rest => some ([e], rest)
      | _ => none

/-- An operand. -/
def operand? : Nat → List Lexeme → Option (Expr × List Lexeme)
  | 0, _ => none
  | fuel + 1, ls =>
    match ls with
    | .name "null" :: rest => some (.atom .null, rest)
    | .name "true" :: rest => some (.atom (.bool true), rest)
    | .name "false" :: rest => some (.atom (.bool false), rest)
    | .name "_" :: rest => some (.name "_", rest)
    | .name s :: rest => some (.name s, rest)
    | .number n :: rest => some (.atom (.number n), rest)
    | .quoted bytes b .closed :: rest => some (.atom (if bytes then .bytes b else .string b), rest)
    | .quoted bytes b .interrupted :: rest => do
      let (parts, rest) ← parts? fuel rest
      some (.template bytes (.atom (.string b) :: parts), rest)
    | .mark "_|_" :: rest => some (.nothing, rest)
    | .mark "(" :: rest => do
      let (e, rest) ← binary? fuel 1 rest
      some (.paren e, ← expect? ")" rest)
    | .mark "[" :: rest => do
      let (items, tail, rest) ← items? fuel rest
      some (.list items tail, rest)
    | .mark "\x7b" :: rest => do
      let (decls, rest) ← decls? fuel rest
      some (.record decls, ← expect? "\x7d" rest)
    | _ => none

/-- The parts of a quoted text behind its first. -/
def parts? : Nat → List Lexeme → Option ((List Expr) × List Lexeme)
  | 0, _ => none
  | fuel + 1, ls => do
    let (e, rest) ← binary? fuel 1 ls
    match rest with
    | .resumed b .closed :: rest => some ([e, .atom (.string b)], rest)
    | .resumed b .interrupted :: rest =>
      let (parts, rest) ← parts? fuel rest
      some (e :: .atom (.string b) :: parts, rest)
    | _ => none

/-- The items of a list up to its bracket, and what a list that goes on goes on with. -/
def items? : Nat → List Lexeme → Option (List Expr × Option Expr × List Lexeme)
  | 0, _ => none
  | fuel + 1, ls =>
    match ls with
    | .mark "]" :: rest => some ([], none, rest)
    | .mark "..." :: rest => do
      let (tail, rest) ← match rest with
        | .comma _ :: _ | .mark "]" :: _ => some (Expr.anything, rest)
        | _ => binary? fuel 1 rest
      match rest with
      | .comma _ :: .mark "]" :: rest | .mark "]" :: rest => some ([], some tail, rest)
      | _ => none
    | _ => do
      let (e, rest) ← item? fuel ls
      match rest with
      | .comma written :: rest =>
        if !written && !startsWith ["]"] rest then none
        else
          let (es, tail, rest) ← items? fuel rest
          some (e :: es, tail, rest)
      | .mark "]" :: rest => some ([e], none, rest)
      | _ => none

/-- An item of a list: an expression, maybe with a local name, or a comprehension. -/
def item? : Nat → List Lexeme → Option (Expr × List Lexeme)
  | 0, _ => none
  | fuel + 1, ls =>
    match ls with
    | .name s :: rest =>
      if (s == "for" || s == "if") && !isPlainName rest then comprehension? fuel ls
      else do
        let (e, rest) ← binary? fuel 1 ls
        handle? fuel e rest
    | _ => binary? fuel 1 ls

/-- An expression behind a local name for it. -/
def handle? : Nat → Expr → List Lexeme → Option (Expr × List Lexeme)
  | 0, _, _ => none
  | fuel + 1, e, ls =>
    match e, ls with
    | .name s, .mark "=" :: rest => do
      let (e, rest) ← binary? fuel 1 rest
      some (.named s e, rest)
    | _, _ => some (e, ls)

/-- A comprehension: clauses and a record. -/
def comprehension? : Nat → List Lexeme → Option (Expr × List Lexeme)
  | 0, _ => none
  | fuel + 1, ls => do
    let (clauses, rest) ← clauses? fuel ls
    let (decls, rest) ← decls? fuel (← expect? "\x7b" rest)
    some (.each clauses decls, ← expect? "\x7d" rest)

/-- The clauses of a comprehension. -/
def clauses? : Nat → List Lexeme → Option ((List Clause) × List Lexeme)
  | 0, _ => none
  | fuel + 1, ls =>
    match ls with
    | .name "for" :: rest => do
      let (first, rest) ← name? rest
      let (key, value, rest) ← match rest with
        | .comma _ :: rest => do
          let (value, rest) ← name? rest
          some (some first, value, rest)
        | _ => some (none, first, rest)
      let (source, rest) ← match rest with
        | .name "in" :: rest => binary? fuel 1 rest
        | _ => none
      let (more, rest) ← clauses? fuel (skipComma rest)
      some (.forEach key value source :: more, rest)
    | .name "if" :: rest => do
      let (e, rest) ← binary? fuel 1 rest
      let (more, rest) ← clauses? fuel (skipComma rest)
      some (.provided e :: more, rest)
    | .name "let" :: rest => do
      let (s, rest) ← name? rest
      let (e, rest) ← binary? fuel 1 (← expect? "=" rest)
      let (more, rest) ← clauses? fuel (skipComma rest)
      some (.bind s e :: more, rest)
    | _ => some ([], ls)

/-- Declarations up to the end of their record. -/
def decls? : Nat → List Lexeme → Option ((List Decl) × List Lexeme)
  | 0, _ => none
  | fuel + 1, ls =>
    match ls with
    | [] | .mark "\x7d" :: _ => some ([], ls)
    | .remark :: rest => do decls? fuel (← endDecl? rest)
    | .mark "..." :: rest => do
      let (ds, rest) ← decls? fuel (← endDecl? rest)
      some (.further :: ds, rest)
    | _ => do
      let (d, rest) ← decl? fuel ls
      let (ds, rest) ← decls? fuel (← endDecl? rest)
      some (d :: ds, rest)

/-- A declaration up to its end. -/
def decl? : Nat → List Lexeme → Option (Decl × List Lexeme)
  | 0, _ => none
  | fuel + 1, ls =>
    match ls with
    | .name s :: rest =>
      if (s == "for" || s == "if") && !isPlainName rest then do
        let (e, rest) ← comprehension? fuel ls
        some (.embed e, rest)
      else if s == "let" && (name? rest).isSome then do
        let (s, rest) ← name? rest
        let (e, rest) ← binary? fuel 1 (← expect? "=" rest)
        some (.bind s e, rest)
      else do
        let (e, rest) ← binary? fuel 1 ls
        labelled? fuel e rest
    | _ => do
      let (e, rest) ← binary? fuel 1 ls
      labelled? fuel e rest

/-- A declaration behind its first expression. -/
def labelled? : Nat → Expr → List Lexeme → Option (Decl × List Lexeme)
  | 0, _, _ => none
  | fuel + 1, e, ls => do
    let (e, ls) ← handle? fuel e ls
    let (handle, label) := match e with
      | .named s e => (some s, e)
      | e => (none, e)
    let (presence, rest) := if isLabel label then presence ls else (.present, ls)
    match rest with
    | .mark ":" :: rest =>
      let (value, rest) ← value? fuel rest
      some (← field? label handle presence value, skipRemarks rest)
    | _ => if handle.isSome then none else some (.embed e, rest)

/-- The value of a field; a chain of labels stands for nested records. -/
def value? : Nat → List Lexeme → Option (Expr × List Lexeme)
  | 0, _ => none
  | fuel + 1, ls => do
    let (e, rest) ← binary? fuel 1 ls
    let (e, rest) ← handle? fuel e rest
    let (handle, label) := match e with
      | .named s e => (some s, e)
      | e => (none, e)
    let (presence, after) := if isLabel label then presence rest else (.present, rest)
    match after with
    | .mark ":" :: after =>
      let (value, after) ← value? fuel after
      some (.record [← field? label handle presence value], after)
    | _ => some (e, rest)

end

/-- The declarations behind the name of a package, which has no meaning for facts. Nothing can be
taken over from other packages. -/
def file? (fuel : Nat) (ls : List Lexeme) : Option ((List Decl) × List Lexeme) :=
  let ls := skipFront ls
  match ls with
  | .name "package" :: rest => do
    let (_, rest) ← name? rest
    match rest with
    | .comma _ :: rest => body? (skipFront rest)
    | [] => some ([], [])
    | _ => none
  | _ => body? ls
where
  /-- The text behind remarks on the file. -/
  skipFront : List Lexeme → List Lexeme
    | .remark :: .comma _ :: rest => skipFront rest
    | ls => ls
  /-- The declarations of the file. -/
  body? (ls : List Lexeme) : Option ((List Decl) × List Lexeme) :=
    match ls with
    | .name "import" :: _ => none
    | _ => decls? fuel ls

end Parse

/-- The declarations of a text, if it is in the notation. -/
def parse? (text : Bytes) : Option (List Decl) := do
  let ls ← Lexeme.ofText? text
  let (ds, rest) ← Parse.file? (16 * ls.length + 16) ls
  if rest.isEmpty then some ds else none

end CircuitCompiler.Notation
