import Cats.Cas.ContentRef
import Cats.Posix.Path

/-!
# The machine an AddressStore runs on

A state holds the Node's local stores, when there is a `CATS_HOME`, the disk
its trees are written to, the log of what was written, and the number of GETs
made so far.  The network answers each GET as it likes: the answer may depend
on the URI and on how many were made before.
-/

namespace Cats

/-- The stores under `CATS_HOME/.cats`. -/
structure Home where
  cas : CasHttpStore
  resources : ResourceKind → String → Option Bytes
  index : LocatorIndex

def Home.resourceStore (home : Home) (kind : ResourceKind) :
    JsonResourceStore :=
  { kind := kind
    files := home.resources kind }

/-- A Node that holds nothing yet. -/
def bareHome : Home :=
  { cas := .empty
    resources := fun _ _ => none
    index := .empty }

inductive Inode where
  | file (data : Bytes)
  | dir
  deriving DecidableEq

abbrev Disk := Path → Option Inode

/-- One creation or overwriting on disk; a directory has no content. -/
structure Write where
  path : Path
  content : Option Bytes
  deriving DecidableEq

structure Machine where
  home : Option Home
  disk : Disk
  writes : List Write
  gets : Nat

/-- What is at a path; the root is always a directory. -/
def Machine.inode? (machine : Machine) (path : Path) : Option Inode :=
  if path = [] then some .dir else machine.disk path

/-- The bytes of the file at a path. -/
def Machine.file? (machine : Machine) (path : Path) : Option Bytes :=
  match machine.inode? path with
  | some (.file data) => some data
  | _ => none

/-- How the network answers the `n`-th GET; `none` when `urlopen` raises. -/
structure Network where
  answer : Nat → String → Option Bytes

abbrev Act (α : Type) : Type := Effect Raised Machine α

namespace Act

/-- A computation that only raises or returns. -/
def lift {α : Type} (result : Except Raised α) : Act α :=
  match result with
  | .ok value => pure value
  | .error raised => throw raised

/-- A computation on the locator index of the Node. -/
def withIndex {α : Type}
    (step : Option LocatorIndex → Except Raised (α × Option LocatorIndex)) :
    Act α := do
  let machine ← get
  let (value, index) ← lift (step (machine.home.map Home.index))
  modify fun machine =>
    { machine with home := match machine.home, index with
        | some home, some index => some { home with index := index }
        | home, _ => home }
  pure value

end Act

/-- `urlopen(Request(uri, method='GET')).read()`. -/
def urlopen (net : Network) (uri : String) : Act Bytes := do
  let machine ← get
  modify fun machine => { machine with gets := machine.gets + 1 }
  match net.answer machine.gets uri with
  | some data => pure data
  | none => throw ⟨.urlError, s!"<urlopen error {uri}>"⟩

namespace Disk

/-- Text no system call accepts. -/
def hasNul (text : List Char) : Bool := text.contains (Char.ofNat 0)

/-- Refuse a path with a NUL. -/
def checkNul (path : String) : Act Unit :=
  if hasNul path.toList then throw (.valueError "embedded null byte")
  else pure ()

def put (path : Path) (inode : Inode) (content : Option Bytes) : Act Unit :=
  modify fun machine =>
    { machine with
      disk := Function.update machine.disk path (some inode)
      writes := machine.writes ++ [⟨path, content⟩] }

/-- One directory, which may be there already. -/
def mkdir (path : Path) (isLast : Bool) : Act Unit := do
  let machine ← get
  match machine.inode? path with
  | none => put path .dir none
  | some .dir => pure ()
  | some (.file _) =>
      throw (if isLast then ⟨.fileExistsError, "File exists"⟩
        else ⟨.notADirectoryError, "Not a directory"⟩)

/-- Make the directories along the parts; a NUL is noticed where it stands. -/
def mkdirsFrom (here : Path) : List (List Char) → Act Unit
  | [] => pure ()
  | part :: parts =>
      if hasNul part then throw (.valueError "embedded null byte")
      else do
        mkdir (Posix.enter here part) parts.isEmpty
        mkdirsFrom (Posix.enter here part) parts

/-- `os.makedirs(path, exist_ok=True)`. -/
def makedirs (path : String) : Act Unit :=
  if path = "" then
    throw ⟨.fileNotFoundError, "No such file or directory: ''"⟩
  else mkdirsFrom [] (Posix.parts path)

/-- `Path(…).mkdir(parents=True, exist_ok=True)`, where a NUL is noticed
before anything is made. -/
def mkdirParents (parts : List (List Char)) : Act Unit :=
  if parts.any hasNul then throw (.valueError "embedded null byte")
  else mkdirsFrom [] parts

/-- Make a directory that was not there, as `tempfile.mkdtemp`. -/
def mkdtemp (path : String) : Act Unit := do
  let machine ← get
  if machine.inode? (Posix.resolve path) ≠ none then
    throw ⟨.fileExistsError, "No usable temporary directory name found"⟩
  else if machine.inode? (Posix.resolve path).dropLast = some .dir then
    put (Posix.resolve path) .dir none
  else throw ⟨.fileNotFoundError, "No such file or directory"⟩

/-- Write a file whose directory is there. -/
def writeAt (path : Path) (data : Bytes) : Act Unit := do
  let machine ← get
  if machine.inode? path = some .dir then
    throw ⟨.isADirectoryError, "Is a directory"⟩
  else if machine.inode? path.dropLast = some .dir then
    put path (.file data) (some data)
  else if machine.inode? path.dropLast = none then
    throw ⟨.fileNotFoundError, "No such file or directory"⟩
  else throw ⟨.notADirectoryError, "Not a directory"⟩

/-- `open(path, 'wb').write(data)`. -/
def writeFile (path : String) (data : Bytes) : Act Unit := do
  checkNul path
  writeAt (Posix.resolve path) data

/-- `open(path).read()`, as bytes. -/
def readFile (path : String) : Act Bytes := do
  checkNul path
  let machine ← get
  match machine.inode? (Posix.resolve path) with
  | some (.file data) => pure data
  | some .dir => throw ⟨.isADirectoryError, "Is a directory"⟩
  | none => throw ⟨.fileNotFoundError, "No such file or directory"⟩

/-- `os.path.isfile(path)`. -/
def isFile (machine : Machine) (path : String) : Bool :=
  !hasNul path.toList &&
    match machine.inode? (Posix.resolve path) with
    | some (.file _) => true
    | _ => false

/-- `os.path.isdir(path)`. -/
def isDir (machine : Machine) (path : String) : Bool :=
  !hasNul path.toList && machine.inode? (Posix.resolve path) = some .dir

/-- `shutil.rmtree(path)`. -/
def rmtree (path : String) : Act Unit :=
  modify fun machine =>
    { machine with
      disk := fun other =>
        if Posix.resolve path <+: other then none else machine.disk other }

end Disk

end Cats
