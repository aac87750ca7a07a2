/-!
# Path names

Slash-separated names of files. `clean` gives the shortest name for the same place without looking
at any file; the other operations are stated on cleaned names, read as a list of elements below a
root or below the current directory.
-/

namespace CircuitCompiler.PathName

/-- The text between slashes, including the empty pieces. -/
def pieces (s : String) : List String := go [] s.toList
where
  /-- Walks the characters, with the current piece reversed. -/
  go (current : List Char) : List Char → List String
    | [] => [String.ofList current.reverse]
    | c :: rest =>
      if c == '/' then String.ofList current.reverse :: go [] rest else go (c :: current) rest

/-- Whether the name starts at the root. -/
def isAbsolute (s : String) : Bool := s.toList.head? == some '/'

/-- Adds one piece to the elements walked so far (last first): empty pieces and `.` stay in place,
`..` steps back unless there is nothing to step back from. -/
def step (rooted : Bool) (walked : List String) (piece : String) : List String :=
  if piece == "" || piece == "." then walked
  else if piece == ".." then
    match walked with
    | top :: below => if top == ".." then ".." :: walked else below
    | [] => if rooted then [] else [".."]
  else piece :: walked

/-- The elements of the cleaned name. -/
def elements (s : String) : List String :=
  ((pieces s).foldl (step (isAbsolute s)) []).reverse

/-- Joins elements below the root or below the current directory. -/
def ofElements (rooted : Bool) (es : List String) : String :=
  if rooted then "/" ++ String.intercalate "/" es
  else if es.isEmpty then "." else String.intercalate "/" es

/-- The shortest name for the same place. -/
def clean (s : String) : String := ofElements (isAbsolute s) (elements s)

/-- The last element of a name; `.` for the empty name and `/` for a name of slashes only. -/
def base (s : String) : String :=
  if s == "" then "."
  else match (pieces s).reverse.dropWhile (· == "") with
    | last :: _ => last
    | [] => "/"

/-- The cleaned name of all but the last piece. -/
def dir (s : String) : String :=
  let front := (pieces s).dropLast
  if front.isEmpty then "."
  else clean (String.intercalate "/" front ++ "/")

/-- The part of the last piece from its last dot on, or nothing if it has none. -/
def extension (s : String) : String :=
  let last := ((pieces s).getLast?.getD "").toList
  if last.contains '.' then
    String.ofList ('.' :: (last.reverse.takeWhile (· != '.')).reverse)
  else ""

/-- Joins the non-empty names with slashes and cleans the result. -/
def join (names : List String) : String :=
  match names.filter (· != "") with
  | [] => ""
  | some_ => clean (String.intercalate "/" some_)

/-- Drops the elements two names share at their front. -/
def dropShared : List String → List String → List String × List String
  | a :: as, b :: bs => if a == b then dropShared as bs else (a :: as, b :: bs)
  | as, bs => (as, bs)

/-- The name of `target` as seen from `origin`, if the text alone decides it. -/
def relative (origin target : String) : Option String :=
  let here := clean origin
  let there := clean target
  if here == there then some "."
  else if isAbsolute here != isAbsolute there then none
  else
    let own (s : String) : List String := (pieces s).filter (· != "")
    let (up, down) := dropShared (if here == "." then [] else own here) (own there)
    if up.head? == some ".." then none
    else some (String.intercalate "/" (up.map (fun _ => "..") ++ down))

/-- The absolute name of `s`, read from the directory `cwd`. -/
def absolute (cwd s : String) : String := if isAbsolute s then clean s else join [cwd, s]

/-- A directory with an absolute name, and those above it up to the root. -/
def ancestors (s : String) : List String :=
  let es := elements s
  (List.range (es.length + 1)).reverse.map fun n => ofElements true (es.take n)

end CircuitCompiler.PathName
