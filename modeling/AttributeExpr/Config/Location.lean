/-!
Where the configuration file is: in the directory `.dynein` of a base directory, which a variable
of the environment names or which is the home directory.
-/
namespace AttributeExpr.Config

/-- The parts of a path between slashes. -/
def splitSlashes : List Char → List (List Char)
  | [] => [[]]
  | c :: rest =>
    if c = '/' then [] :: splitSlashes rest
    else (c :: (splitSlashes rest).headD []) :: (splitSlashes rest).tail

/-- The slashes at the start of a normal path: two stay two, and any other number is one. -/
def root (path : List Char) : String :=
  match (path.takeWhile (· = '/')).length with
  | 0 => ""
  | 2 => "//"
  | _ => "/"

/-- The path of a file under a directory: no part is empty or a single point. -/
def pathUnder (directory : String) (parts : List String) : String :=
  let path := directory.toList
  let kept := (splitSlashes path).filter fun part => part ≠ [] && part ≠ ['.']
  root path ++ "/".intercalate (kept.map String.ofList ++ parts)

/-- The normal spelling of a path. -/
def normalPath (path : String) : String :=
  let normal := pathUnder path []
  if normal.isEmpty then "." else normal

/-- The home directory without slashes at its end. A name that starts with a tilde is none. -/
def homeDirectory? (home : String) : Option String :=
  let trimmed := (home.toList.reverse.dropWhile (· = '/')).reverse
  match trimmed with
  | [] => some "/"
  | '~' :: _ => none
  | _ => some (String.ofList trimmed)

/-- The path of the configuration file for a named base directory and a home directory. -/
def location? (base : Option String) (home : String) : Option String :=
  let directory := match base with
    | none | some "" => homeDirectory? home
    | some directory => some directory
  directory.map fun directory => pathUnder directory [".dynein", "config.yml"]

end AttributeExpr.Config
