import CircuitCompiler.Text.Style

/-!
# Releases

The version the tool reports about itself. In colour, the three numbers of a version such as
`1.2.3-dev` are told apart; any other version is shown as it is.
-/

namespace CircuitCompiler

open Text

/-- What is known about the build of the tool. -/
structure Release where
  version : String := "0.1.0-dev"
  commit : String := ""
  date : String := ""
  deriving DecidableEq, Repr, Inhabited

namespace Release

/-- The text before the first dash and the text behind it. -/
def cutAtDash (s : String) : String × String :=
  let cs := s.toList
  (String.ofList (cs.takeWhile (· != '-')), String.ofList ((cs.dropWhile (· != '-')).drop 1))

/-- The parts of a text between dots. -/
def dotted (s : String) : List String := go [] s.toList
where
  /-- Walks the characters, with the current part reversed. -/
  go (current : List Char) : List Char → List String
    | [] => [String.ofList current.reverse]
    | c :: rest =>
      if c == '.' then String.ofList current.reverse :: go [] rest else go (c :: current) rest

/-- A version in colour. -/
def colored (version : String) : String :=
  let (core, suffix) := cutAtDash version
  match dotted core with
  | [major, minor, patch] =>
    styled [.yellow, .bold] major ++ "." ++ styled [.green, .bold] minor ++ "." ++
      styled [.blue, .bold] patch ++ (if suffix == "" then "" else "-" ++ suffix)
  | _ => version

/-- The lines that tell the version. -/
def banner (r : Release) (color : Bool) : String :=
  "cdlc " ++ (if color then colored r.version else r.version) ++ "\n" ++
    (if r.commit == "" then "" else "commit: " ++ r.commit ++ "\n") ++
    (if r.date == "" then "" else "built:  " ++ r.date ++ "\n")

end Release
end CircuitCompiler
