import CircuitCompiler.Text.Bytes
import CircuitCompiler.Text.Quoted

/-!
# Command-line options

An option is written with two dashes and its name; its value follows behind `=` or as the next
argument. A switch needs no value, and one with a letter may be written with one dash, together with
others. Two dashes alone end the options. Whole numbers may be written in base two, eight, ten or
sixteen.
-/

namespace CircuitCompiler.Command

/-- What an option takes. -/
inductive OptionKind where
  | switch
  | whole
  | text
  deriving DecidableEq, Repr, Inhabited

/-- An option a command knows, with the value it has where it is not given. -/
structure OptionSpec where
  name : String
  kind : OptionKind
  initial : String
  letter : Option Char := none
  deriving DecidableEq, Repr, Inhabited

/-- The option as it is named in messages. -/
def OptionSpec.title (s : OptionSpec) : String :=
  match s.letter with
  | some c => "-" ++ String.singleton c ++ ", --" ++ s.name
  | none => "--" ++ s.name

/-! ## Errors -/

/-- What is wrong with a value. -/
inductive ValueFault where
  | notSwitch
  | notWhole
  | outOfRange
  deriving DecidableEq, Repr, Inhabited

/-- What is wrong with the options. -/
inductive OptionError where
  | badForm (argument : String)
  | unknown (name : String)
  | unknownLetter (letter : Char) (letters : String)
  | needsValue (name : String)
  | badValue (spec : OptionSpec) (value : String) (fault : ValueFault)
  deriving DecidableEq, Repr, Inhabited

/-- The cause a value was refused for. -/
def ValueFault.message (value : String) : ValueFault → String
  | notSwitch => "strconv.ParseBool: parsing " ++ Text.Quoted.ofString value ++ ": invalid syntax"
  | notWhole => "strconv.ParseInt: parsing " ++ Text.Quoted.ofString value ++ ": invalid syntax"
  | outOfRange =>
    "strconv.ParseInt: parsing " ++ Text.Quoted.ofString value ++ ": value out of range"

/-- A letter between single quotes; letters beyond ASCII are not told apart. -/
def quoteLetter (c : Char) : String :=
  if c == '\'' then "'\\''"
  else if c == '"' then "'\"'"
  else if c.toNat < 0x80 then String.ofList ('\'' :: Text.Quoted.char c ++ ['\''])
  else "'Ã'"

/-- The error in one line. -/
def OptionError.message : OptionError → String
  | badForm argument => "bad flag syntax: " ++ argument
  | unknown name => "unknown flag: --" ++ name
  | unknownLetter letter letters =>
    "unknown shorthand flag: " ++ quoteLetter letter ++ " in -" ++ letters
  | needsValue name => "flag needs an argument: --" ++ name
  | badValue spec value fault =>
    "invalid argument " ++ Text.Quoted.ofString value ++
      " for " ++ Text.Quoted.ofString spec.title ++
      " flag: " ++ fault.message value

/-! ## Values -/

/-- The truth value a word stands for. -/
def switch? (s : String) : Option Bool :=
  if ["1", "t", "T", "TRUE", "true", "True"].contains s then some true
  else if ["0", "f", "F", "FALSE", "false", "False"].contains s then some false
  else none

/-- The value of a letter or digit as a digit. -/
def digit? (c : Char) : Option Nat :=
  if c.isDigit then some (c.toNat - 48)
  else if 'a' ≤ c.toLower && c.toLower ≤ 'z' then some (c.toLower.toNat - 87)
  else none

/-- Adds digits to a number that has to stay below `2^64`; underscores are passed over. -/
def magnitude (radix : Nat) (n : Nat) : List Char → Except ValueFault Nat
  | [] => .ok n
  | c :: rest =>
    if c == '_' then magnitude radix n rest
    else match digit? c with
      | some d =>
        if radix ≤ d then .error .notWhole
        else if Nat.pow 2 64 ≤ n * radix + d then .error .outOfRange
        else magnitude radix (n * radix + d) rest
      | none => .error .notWhole

/-- Whether each underscore stands behind a digit and before one; `after` says whether a digit
stands directly before. -/
def underscoresFit (after : Bool) : List Char → Bool
  | [] => true
  | '_' :: rest => after && !rest.isEmpty && underscoresFit false rest
  | _ :: rest => underscoresFit true rest

/-- The base of a number without its sign, and its digits behind the announcement of the base. -/
def splitBase (cs : List Char) : Nat × List Char :=
  match cs with
  | '0' :: b :: d :: rest =>
    if b.toLower == 'b' then (2, d :: rest)
    else if b.toLower == 'o' then (8, d :: rest)
    else if b.toLower == 'x' then (16, d :: rest)
    else (8, b :: d :: rest)
  | '0' :: rest => (8, rest)
  | _ => (10, cs)

/-- The whole number a text stands for, within 64 bits. -/
def whole (s : String) : Except ValueFault Int := do
  let (negative, cs) := match s.toList with
    | '-' :: rest => (true, rest)
    | '+' :: rest => (false, rest)
    | cs => (false, cs)
  if cs.isEmpty then .error .notWhole
  else
    let (radix, ds) := splitBase cs
    let n ← magnitude radix 0 ds
    if !underscoresFit (radix != 10) ds then .error .notWhole
    else if negative then if n ≤ Nat.pow 2 63 then .ok (-n) else .error .outOfRange
    else if n < Nat.pow 2 63 then .ok n else .error .outOfRange

/-- The value of an option as it is kept, if the option takes it. -/
def OptionSpec.accept (s : OptionSpec) (value : String) : Except OptionError String :=
  match s.kind with
  | .text => .ok value
  | .switch =>
    match switch? value with
    | some b => .ok (toString b)
    | none => .error (.badValue s value .notSwitch)
  | .whole =>
    match whole value with
    | .ok n => .ok (toString n)
    | .error fault => .error (.badValue s value fault)

/-! ## Arguments -/

/-- The options that were given, the last first, and the other arguments in order. -/
structure Arguments where
  given : List (String × String) := []
  operands : List String := []
  deriving DecidableEq, Repr, Inhabited

namespace Arguments

/-- Adds an option. -/
def give (a : Arguments) (spec : OptionSpec) (value : String) : Except OptionError Arguments := do
  return { a with given := (spec.name, ← spec.accept value) :: a.given }

/-- Reads letters written behind one dash; all options with a letter are switches. -/
def letters (specs : List OptionSpec) (a : Arguments) : List Char → Except OptionError Arguments
  | [] => .ok a
  | c :: rest =>
    match specs.find? (·.letter == some c) with
    | none => .error (.unknownLetter c (String.ofList (c :: rest)))
    | some spec =>
      match rest with
      | '=' :: d :: more => a.give spec (String.ofList (d :: more))
      | _ => do letters specs (← a.give spec "true") rest

/-- The text before the first `=` and, if there is one, the text behind it. -/
def splitValue (cs : List Char) : String × Option String :=
  let name := String.ofList (cs.takeWhile (· != '='))
  match cs.dropWhile (· != '=') with
  | _ :: value => (name, some (String.ofList value))
  | [] => (name, none)

/-- Reads the arguments of a command. -/
def read (specs : List OptionSpec) (a : Arguments) : List String → Except OptionError Arguments
  | [] => .ok a
  | s :: rest =>
    match s.toList with
    | '-' :: '-' :: [] => .ok { a with operands := a.operands ++ rest }
    | '-' :: '-' :: cs =>
      if cs.head? == some '-' || cs.head? == some '=' then .error (.badForm s)
      else
        let (name, value?) := splitValue cs
        match specs.find? (·.name == name) with
        | none => .error (.unknown name)
        | some spec =>
          match value? with
          | some value => do read specs (← a.give spec value) rest
          | none =>
            if spec.kind = .switch then do read specs (← a.give spec "true") rest
            else match rest with
              | value :: rest => do read specs (← a.give spec value) rest
              | [] => .error (.needsValue name)
    | '-' :: c :: cs =>
      if "test.".toList.isPrefixOf (c :: cs) then read specs a rest
      else do read specs (← a.letters specs (c :: cs)) rest
    | _ => read specs { a with operands := a.operands ++ [s] } rest

/-- Whether an option was given. -/
def has (a : Arguments) (name : String) : Bool := (a.given.lookup name).isSome

/-- The value of an option. -/
def text (a : Arguments) (specs : List OptionSpec) (name : String) : String :=
  match a.given.lookup name with
  | some v => v
  | none => ((specs.find? (·.name == name)).map (·.initial)).getD ""

end Arguments
end CircuitCompiler.Command
