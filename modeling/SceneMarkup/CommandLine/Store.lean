/-
  SceneMarkup/CommandLine/Store.lean --- files and directories that live in memory.

  WHAT THIS FILE IS FOR.  A store is a tree of directories with files in them.  A path
  that does not begin at the root begins at `home`; `Store.follow` goes along its names
  one by one, and what they lead through decides which error a path ends in that leads
  nowhere.
-/
import SceneMarkup.CommandLine.Files

set_option autoImplicit false

namespace SceneMarkup.CommandLine

/-- What has a name in a directory: a file with its text, or a directory with its entries. -/
inductive Stored where
  | file (text : String)
  | directory (entries : List (String × Stored))
  deriving Repr, Inhabited

/-- The names that lead to a place from the root. -/
abbrev Place : Type := List String

/-- Where paths begin that do not begin at the root. -/
def home : Place := ["tmp", "work"]

/-- The entries of the root. -/
abbrev Store : Type := List (String × Stored)

namespace Store

/-- The entries with something under a name. -/
def insert (name : String) (stored : Stored) : Store → Store
  | [] => [(name, stored)]
  | entry :: rest =>
      if entry.1 = name then (name, stored) :: rest else entry :: insert name stored rest

/-- Puts something in a place, and directories above it where there were none. -/
def put (stored : Stored) : Place → Store → Store
  | [], store => store
  | [name], store => store.insert name stored
  | name :: rest, store =>
      let below := match store.lookup name with
        | some (.directory entries) => entries
        | _ => []
      store.insert name (.directory (put stored rest below))

/-- A store without files, but for the one that stays empty: the usual directories below the
root, and the one where paths begin. -/
def empty : Store :=
  put (.file "") ["dev", "null"] <| put (.directory []) home <|
    ["bin", "boot", "dev", "etc", "home", "lib", "media", "mnt", "opt", "proc", "root", "run",
      "sbin", "srv", "sys", "tmp", "usr", "var"].map fun name => (name, .directory [])

/-! ## Following a path -/

/-- The way to a place, its last name first, with what is in each place on the way. -/
abbrev Trail : Type := List (String × Option Stored)

/-- What is at the end of a trail. -/
def Trail.here (store : Store) : Trail → Option Stored
  | [] => some (.directory store)
  | (_, stored) :: _ => stored

/-- The place at the end of a trail. -/
def Trail.place (trail : Trail) : Place := (trail.map Prod.fst).reverse

/-- The trail along some names. All that they lead through is a directory, and no name has more
than 255 bytes; there may be nothing at the end. What is above the root is the root. -/
def follow (store : Store) (trail : Trail) : List String → Except FileError Trail
  | [] => .ok trail
  | name :: rest =>
      match trail.here store with
      | none => .error .notFound
      | some (.file _) => .error .notDirectory
      | some (.directory entries) =>
          if name = ".." then follow store trail.tail rest
          else if 255 < name.utf8ByteSize then .error .nameTooLong
          else follow store ((name, entries.lookup name) :: trail) rest

/-- The place to which a path leads, and what is there. -/
def find (store : Store) (path : String) : Except FileError (Place × Option Stored) :=
  match pathFault? path with
  | some fault => .error fault
  | none => do
      let trail ← store.follow [] ((if isAbsolute path then [] else home) ++ steps path)
      return (trail.place, trail.here store)

/-! ## Operations -/

/-- The text of a file. -/
def read (store : Store) (path : String) : Except FileError String := do
  match ← store.find path with
  | (_, none) => .error .notFound
  | (_, some (.directory _)) => .error .isDirectory
  | (_, some (.file text)) => if endsInDirectory path then .error .notDirectory else .ok text

/-- The store in which a file has a text. -/
def write (store : Store) (path text : String) : Except FileError Store := do
  match ← store.find path with
  | (_, some (.directory _)) => .error .isDirectory
  | (place, _) =>
      if endsInDirectory path then .error .isDirectory else .ok (store.put (.file text) place)

/-- The store with a new directory. A dot after the last slash stands in the directory before it,
which must be there. -/
def makeDir (store : Store) (path : String) : Except FileError Store := do
  let inside := lastPart path == ['.']
  match ← store.find path with
  | (_, some (.directory _)) => .error .alreadyExists
  | (_, some (.file _)) => .error (if inside then .notDirectory else .alreadyExists)
  | (place, none) => if inside then .error .notFound else .ok (store.put (.directory []) place)

/-- Whether a path leads to a directory. -/
def isDirectory (store : Store) (path : String) : Bool :=
  match store.find path with
  | .ok (_, some (.directory _)) => true
  | _ => false

/-! ## Files -/

/-- The store with a file, and the directories above it. -/
def withFile (store : Store) (path text : String) : Store :=
  store.put (.file text) (home ++ steps path)

mutual

/-- The files in what has a name, each with the path that leads to it. -/
def filesUnder (path : String) : Stored → List (String × String)
  | .file text => [(path, text)]
  | .directory entries => filesAmong (path ++ "/") entries

/-- The files under some entries, each with the path that leads to it after another. -/
def filesAmong (before : String) : List (String × Stored) → List (String × String)
  | [] => []
  | (name, stored) :: rest => filesUnder (before ++ name) stored ++ filesAmong before rest

end

/-- The files below the place where paths begin, each with the path that leads to it. -/
def files (store : Store) : List (String × String) :=
  match store.follow [] home with
  | .ok trail =>
      match trail.here store with
      | some (.directory entries) => filesAmong "" entries
      | _ => []
  | .error _ => []

end Store

/-- Replaces the store by a new one if there is one. -/
def replaceStore (result : Except FileError Store) : StateM Store (Except FileError Unit) :=
  match result with
  | .error error => pure (.error error)
  | .ok store => do
      set store
      return .ok ()

/-- Access to the files of a store in memory. -/
def Files.inMemory : Files (StateM Store) where
  read path := do return (← get).read path
  write path text := do replaceStore ((← get).write path text)
  makeDir path := do replaceStore ((← get).makeDir path)
  isDirectory path := do return (← get).isDirectory path

end SceneMarkup.CommandLine
