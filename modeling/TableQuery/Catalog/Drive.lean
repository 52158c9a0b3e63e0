import TableQuery.Fault

/-! Files and directories. A path is a list of names from the working directory on. -/
namespace TableQuery

abbrev Path := List String

/-- The files with their texts, and the directories. -/
structure Drive where
  files : List (Path × String) := []
  directories : List Path := []
  /-- The directories that count as not writable, by the texts that name them. -/
  denied : List String := []
  /-- The directories in which no file can be made or taken away. -/
  locked : List Path := []
  /-- The order in which the names in a directory are listed. -/
  arrange : List String → List String := id

namespace Path

def split (mark : Char) : List Char → List (List Char)
  | [] => [[]]
  | c :: rest =>
    if c == mark then [] :: split mark rest
    else
      match split mark rest with
      | piece :: pieces => (c :: piece) :: pieces
      | [] => [[c]]

def pieces (mark : Char) (s : String) : List String := (split mark s.toList).map String.ofList

def step (path : Path) (name : String) : Path :=
  if name == "" || name == "." then path
  else if name == ".." then path.dropLast
  else path ++ [name]

def ofString? (s : String) : Option Path :=
  if s == "" then none else some ((pieces '/' s).foldl step [])

def join (dir name : String) : String :=
  if dir == "" then name
  else if dir.toList.getLast? == some '/' then dir ++ name
  else dir ++ "/" ++ name

def baseName (s : String) : String := ((pieces '/' s).getLast?).getD ""

/-- A name without what follows its last dot, and the dot. A name without a dot has nothing left. -/
def withoutExtension (name : String) : String :=
  String.intercalate "." (pieces '.' name).dropLast

end Path

namespace Drive

def file? (d : Drive) (path : Path) : Option String := d.files.lookup path

def isDirectory (d : Drive) (path : Path) : Bool := path.isEmpty || d.directories.contains path

def holds (d : Drive) (path : Path) : Bool := d.isDirectory path || (d.file? path).isSome

def pathExists (d : Drive) (s : String) : Bool := (Path.ofString? s).any d.holds

def ancestors (path : Path) : List Path :=
  (List.range path.length).map fun i => path.take (i + 1)

def makeDirectories (d : Drive) (s : String) : Except Fault Drive :=
  match Path.ofString? s with
  | none => .error .fileNotFound
  | some path =>
    if (ancestors path).any fun p => (d.file? p).isSome then .error .notDirectory
    else
      let added := (ancestors path).filter fun p => !d.isDirectory p
      .ok { d with directories := d.directories ++ added }

def read (d : Drive) (s : String) : Except Fault String :=
  match Path.ofString? s with
  | none => .error .fileNotFound
  | some path =>
    match d.file? path with
    | some text => .ok text
    | none =>
      if d.isDirectory path then .error .isDirectory
      else if (ancestors path.dropLast).any fun p => (d.file? p).isSome then .error .notDirectory
      else .error .fileNotFound

def setFile (files : List (Path × String)) (path : Path) (text : String) : List (Path × String) :=
  match files with
  | [] => [(path, text)]
  | (p, old) :: rest => if p == path then (p, text) :: rest else (p, old) :: setFile rest path text

def write (d : Drive) (s text : String) : Except Fault Drive :=
  match Path.ofString? s with
  | none => .error .fileNotFound
  | some path =>
    if d.isDirectory path then .error .isDirectory
    else if (ancestors path.dropLast).any fun p => (d.file? p).isSome then .error .notDirectory
    else if !d.isDirectory path.dropLast then .error .fileNotFound
    else if (d.file? path).isNone && d.locked.contains path.dropLast then .error .notPermitted
    else .ok { d with files := setFile d.files path text }

def place (d : Drive) (s text : String) : Except Fault Drive := do
  match Path.ofString? s with
  | none => throw .fileNotFound
  | some path =>
    let d ← if path.dropLast.isEmpty then pure d
      else d.makeDirectories (String.intercalate "/" path.dropLast)
    d.write s text

def remove (d : Drive) (s : String) : Except Fault Drive :=
  match Path.ofString? s with
  | none => .error .fileNotFound
  | some path =>
    if (d.file? path).isSome then
      if d.locked.contains path.dropLast then .error .notPermitted
      else .ok { d with files := d.files.filter fun f => f.1 != path }
    else if d.isDirectory path then .error .isDirectory
    else .error .fileNotFound

def removeDirectory (d : Drive) (s : String) : Except Fault Drive :=
  match Path.ofString? s with
  | none => .error .fileNotFound
  | some path =>
    if d.isDirectory path then
      .ok { d with
        files := d.files.filter fun f => !path.isPrefixOf f.1
        directories := d.directories.filter fun p => !path.isPrefixOf p }
    else if (d.file? path).isSome then .error .notDirectory
    else .error .fileNotFound

def byName (names : List String) : List String := names.mergeSort fun a b => !(b < a)

def list (d : Drive) (s : String) : Except Fault (List String) :=
  match Path.ofString? s with
  | none => .error .fileNotFound
  | some path =>
    if d.isDirectory path then
      let inside (p : Path) : Option String :=
        if p.length == path.length + 1 && path.isPrefixOf p then p.getLast? else none
      .ok (d.arrange ((d.files.map (·.1) ++ d.directories).filterMap inside))
    else if (d.file? path).isSome then .error .notDirectory
    else .error .fileNotFound

def isWritable (d : Drive) (s : String) : Bool :=
  !d.denied.contains s && !(Path.ofString? s).any d.locked.contains

end Drive

end TableQuery
