import CircuitCompiler.Notation.Number

/-!
# Patterns of text

Regular expressions as the notation writes them. `Pattern.ends` gives every place where a match that
begins at a place can end, so that `Pattern.isIn` asks for one anywhere in a text.
-/

namespace CircuitCompiler.Notation

/-- A set of characters: runs of code points, or everything else. -/
structure CharSet where
  runs : List (Nat × Nat)
  inverted : Bool := false
  deriving DecidableEq, Repr, Inhabited

/-- Whether a character is in a set. -/
def CharSet.contains (s : CharSet) (c : Char) : Bool :=
  (s.runs.any fun r => r.1 ≤ c.toNat && c.toNat ≤ r.2) != s.inverted

/-- A regular expression. -/
inductive Pattern where
  | empty
  | char (s : CharSet)
  /-- The place before the first or behind the last character. -/
  | start
  | finish
  /-- A place where a word begins or ends, or any other place. -/
  | edge (present : Bool)
  | sequence (a b : Pattern)
  | either (a b : Pattern)
  | many (p : Pattern)
  deriving Repr, Inhabited

namespace Pattern

/-! ## Matching -/

/-- The characters of words. -/
def wordSet : CharSet := { runs := [(48, 57), (65, 90), (95, 95), (97, 122)] }

/-- Whether a word begins or ends at a place. -/
def isEdge (cs : List Char) (i : Nat) : Bool :=
  let before := 0 < i && (cs[i - 1]?).any wordSet.contains
  before != (cs[i]?).any wordSet.contains

/-- The places that can be reached by steps of a pattern, at most `n` of them. -/
def reach (step : Nat → List Nat) : Nat → List Nat → List Nat
  | 0, reached => reached
  | n + 1, reached =>
    let next := ((reached.flatMap step) ++ reached).eraseDups
    if next.length == reached.length then reached else reach step n next

/-- The places where a match that begins at a place can end. -/
def ends (cs : List Char) : Pattern → Nat → List Nat
  | .empty, i => [i]
  | .char s, i => if (cs[i]?).any s.contains then [i + 1] else []
  | .start, i => if i == 0 then [i] else []
  | .finish, i => if i == cs.length then [i] else []
  | .edge present, i => if isEdge cs i == present then [i] else []
  | .sequence a b, i => ((ends cs a i).flatMap (ends cs b)).eraseDups
  | .either a b, i => (ends cs a i ++ ends cs b i).eraseDups
  | .many p, i => reach (ends cs p) (cs.length + 1) [i]

/-- Whether a text has a match of a pattern. -/
def isIn (p : Pattern) (text : String) : Bool :=
  (List.range (text.length + 1)).any fun i => !(ends text.toList p i).isEmpty

/-! ## Reading -/

/-- One character. -/
def one (c : Char) : CharSet := { runs := [(c.toNat, c.toNat)] }

/-- The sets that a letter behind a backslash stands for. -/
def classes : List (Char × CharSet) :=
  let digits := [(48, 57)]
  let blanks := [(9, 10), (12, 13), (32, 32)]
  [('d', ⟨digits, false⟩), ('D', ⟨digits, true⟩), ('s', ⟨blanks, false⟩), ('S', ⟨blanks, true⟩),
    ('w', wordSet), ('W', { wordSet with inverted := true })]

/-- The characters that a letter behind a backslash stands for. -/
def escapes : List (Char × Char) :=
  [('a', '\x07'), ('f', '\x0c'), ('n', '\n'), ('r', '\r'), ('t', '\t'), ('v', '\x0b')]

/-- The character of an escape behind its backslash. -/
def escape? : List Char → Option (Char × List Char)
  | 'x' :: '\x7b' :: rest => do
    let ds := rest.takeWhile (· != '\x7d')
    if ds.isEmpty || !ds.all (Number.isDigitOf 16) then none
    else
      let n := Number.valueOf 16 ds
      if n.isValidChar then some (Char.ofNat n, rest.drop (ds.length + 1)) else none
  | 'x' :: a :: b :: rest =>
    if [a, b].all (Number.isDigitOf 16) then
      some (Char.ofNat (Number.valueOf 16 [a, b]), rest)
    else none
  | c :: rest =>
    match escapes.lookup c with
    | some d => some (d, rest)
    | none => if c.isAlphanum || 0x80 ≤ c.toNat then none else some (c, rest)
  | [] => none

/-- The sets that have names between brackets. -/
def namedSets : List (String × List (Nat × Nat)) :=
  [("alpha", [(65, 90), (97, 122)]), ("digit", [(48, 57)]),
    ("alnum", [(48, 57), (65, 90), (97, 122)]), ("upper", [(65, 90)]), ("lower", [(97, 122)]),
    ("space", [(9, 13), (32, 32)]), ("word", wordSet.runs),
    ("xdigit", [(48, 57), (65, 70), (97, 102)]),
    ("punct", [(33, 47), (58, 64), (91, 96), (123, 126)])]

/-- The runs of a set between brackets, up to its closing bracket. -/
def setRuns? : Nat → Bool → List Char → Option (List (Nat × Nat) × List Char)
  | 0, _, _ => none
  | _ + 1, _, [] => none
  | fuel + 1, first, c :: cs =>
    if c == ']' && !first then some ([], cs)
    else if c == '[' && cs.head? == some ':' then do
      let name := (cs.drop 1).takeWhile Char.isAlpha
      let runs ← namedSets.lookup (String.ofList name)
      match cs.drop (1 + name.length) with
      | ':' :: ']' :: rest =>
        let (more, rest) ← setRuns? fuel false rest
        some (runs ++ more, rest)
      | _ => none
    else
      match (if c == '\\' then cs.head?.bind (List.lookup · classes) else none) with
      | some s => do
        let (more, rest) ← if s.inverted then none else setRuns? fuel false (cs.drop 1)
        some (s.runs ++ more, rest)
      | none => do
        let (low, rest) ← if c == '\\' then escape? cs else some (c, cs)
        let (high, rest) ← match rest with
          | '-' :: d :: after =>
            if d == ']' then some (low, rest)
            else if d == '\\' then escape? after
            else some (d, after)
          | _ => some (low, rest)
        if high.toNat < low.toNat then none
        else
          let (more, rest) ← setRuns? fuel false rest
          some ((low.toNat, high.toNat) :: more, rest)

/-- A pattern repeated a number of times. -/
def times (p : Pattern) : Nat → Pattern
  | 0 => empty
  | n + 1 => sequence p (times p n)

/-- A pattern repeated at most a number of times. -/
def upTo (p : Pattern) : Nat → Pattern
  | 0 => empty
  | n + 1 => either empty (sequence p (upTo p n))

/-- The largest count of a repetition. -/
def largestCount : Nat := 1000

/-- The counts of a repetition behind its brace, if it is one. -/
def counts? (cs : List Char) : Option (Nat × Option Nat × List Char) :=
  let low := cs.takeWhile Char.isDigit
  if low.isEmpty then none
  else
    match cs.drop low.length with
    | '\x7d' :: rest => some (Number.valueOf 10 low, some (Number.valueOf 10 low), rest)
    | ',' :: rest =>
      let high := rest.takeWhile Char.isDigit
      match rest.drop high.length with
      | '\x7d' :: rest =>
        let most := if high.isEmpty then none else some (Number.valueOf 10 high)
        some (Number.valueOf 10 low, most, rest)
      | _ => none
    | _ => none

/-- The repetition behind a pattern, if there is one; how greedy it is does not matter. -/
def repeated? (p : Pattern) (cs : List Char) : Option (Pattern × List Char) :=
  let (q, rest) : Option Pattern × List Char := match cs with
    | '*' :: rest => (some (many p), rest)
    | '+' :: rest => (some (sequence p (many p)), rest)
    | '?' :: rest => (some (either p empty), rest)
    | '\x7b' :: more =>
      match counts? more with
      | some (low, high, rest) =>
        if largestCount < max low (high.getD 0) || high.any (· < low) then (none, rest)
        else (some (sequence (times p low) (match high with
          | some high => upTo p (high - low)
          | none => many p)), rest)
      | none => (some p, cs)
    | _ => (some p, cs)
  q.bind fun q =>
    if rest.length == cs.length then some (q, rest)
    else
      let rest := if rest.head? == some '?' then rest.drop 1 else rest
      if rest.head?.any fun c => c == '*' || c == '+' || c == '?' then none else some (q, rest)

mutual

/-- Alternatives up to a closing parenthesis or the end. -/
def alternatives? : Nat → List Char → Option (Pattern × List Char)
  | 0, _ => none
  | fuel + 1, cs => do
    let (p, rest) ← sequence? fuel cs
    match rest with
    | '|' :: rest =>
      let (q, rest) ← alternatives? fuel rest
      some (either p q, rest)
    | _ => some (p, rest)

/-- Patterns one after the other. -/
def sequence? : Nat → List Char → Option (Pattern × List Char)
  | 0, _ => none
  | fuel + 1, cs =>
    match cs with
    | [] | '|' :: _ | ')' :: _ => some (empty, cs)
    | _ => do
      let (p, rest) ← unit? fuel cs
      let (p, rest) ← repeated? p rest
      let (q, rest) ← sequence? fuel rest
      some (sequence p q, rest)

/-- A pattern that a repetition can stand behind. -/
def unit? : Nat → List Char → Option (Pattern × List Char)
  | 0, _ => none
  | fuel + 1, cs =>
    match cs with
    | '(' :: '?' :: ':' :: rest | '(' :: rest => do
      if rest.head? == some '?' then none
      else
        let (p, rest) ← alternatives? fuel rest
        match rest with
        | ')' :: rest => some (p, rest)
        | _ => none
    | '[' :: '^' :: rest =>
      (setRuns? (rest.length + 1) true rest).map fun (rs, rest) => (char ⟨rs, true⟩, rest)
    | '[' :: rest =>
      (setRuns? (rest.length + 1) true rest).map fun (rs, rest) => (char ⟨rs, false⟩, rest)
    | '.' :: rest => some (char { one '\n' with inverted := true }, rest)
    | '^' :: rest | '\\' :: 'A' :: rest => some (start, rest)
    | '$' :: rest | '\\' :: 'z' :: rest => some (finish, rest)
    | '\\' :: 'b' :: rest => some (edge true, rest)
    | '\\' :: 'B' :: rest => some (edge false, rest)
    | '\\' :: c :: rest =>
      match classes.lookup c with
      | some s => some (char s, rest)
      | none => (escape? (c :: rest)).map fun (d, rest) => (char (one d), rest)
    | ['\\'] => none
    | '*' :: _ | '+' :: _ | '?' :: _ => none
    | c :: rest => some (char (one c), rest)
    | [] => none

end

/-- The pattern of a text. -/
def parse? (text : String) : Option Pattern := do
  let (p, rest) ← alternatives? (4 * text.length + 4) text.toList
  if rest.isEmpty then some p else none

end Pattern
end CircuitCompiler.Notation
