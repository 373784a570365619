/-!
The parts of file names: names of directories and files between slashes.
-/
namespace Trendline.Path

/-- Drops empty names and dots from the end, last name first; a dot in front stays. -/
def trimReversed : List String → List String
  | "" :: rest => trimReversed rest
  | "." :: name :: rest => trimReversed (name :: rest)
  | names => names

/-- The names in a path, last first. -/
def namesReversed (path : String) : List String :=
  trimReversed (path.splitOn "/").reverse

/-- The path of the directory that holds a file; empty for a file of the working directory. -/
def parent (path : String) : String :=
  "/".intercalate (trimReversed (namesReversed path).tail).reverse

/-- The rests of a list of names, last name first, that name something. -/
def namingRests : List String → List (List String)
  | [] => []
  | name :: above =>
      if trimReversed (name :: above) = name :: above then (name :: above) :: namingRests above
      else namingRests above

/-- The path itself and the paths of the directories above it, from the innermost outwards, as far as
it names them. -/
def ancestors (path : String) : List String :=
  (namingRests (namesReversed path)).map fun names => "/".intercalate names.reverse

/-- What stands before the last dot of a name, unless that dot is all that stands before. -/
def stemOfName (name : String) : String :=
  match (name.splitOn ".").reverse with
  | _ :: before :: rest =>
      let stem := ".".intercalate (before :: rest).reverse
      if stem.isEmpty then name else stem
  | _ => name

/-- The name of a file without its directory and its ending. -/
def stem (path : String) : String :=
  match namesReversed path with
  | name :: _ => if name = "." || name = ".." then "" else stemOfName name
  | [] => ""

end Trendline.Path
