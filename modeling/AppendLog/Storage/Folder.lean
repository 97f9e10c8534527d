import AppendLog.Storage.File

/-! A folder with files and folders in it, named by paths.

A place is named by its steps from the folder, where a step may lead up, or by its steps
from the root, in front of which the root stands as a slash. Empty steps and single dots
in a path stay where they are, and double dots go one folder up. A path is followed step
by step, so every folder on the way must exist. Names and paths have a greatest length in
bytes, and none holds a zero byte.
-/

set_option autoImplicit false

namespace AppendLog

structure Folder where
  /-- The folders known besides this one, those above it and the root. -/
  folders : List (List String)
  files : List (List String × Bytes)
  deriving DecidableEq, Repr

/-- Access to a folder: what has been made stays, also if a later step fails. -/
abbrev FolderAccess (α : Type) := EStateM StorageError Folder α

inductive Place where
  | folder
  | file (steps : List String) (content : Bytes)
  /-- Nothing of that name, in a folder that exists. -/
  | free (steps : List String)
  | nowhere
  deriving DecidableEq, Repr

namespace Folder

def empty : Folder := ⟨[], []⟩

def steps (path : String) : List String := (path.toList.splitOn '/').map String.ofList

def origin (path : String) : List String := if path.startsWith "/" then ["/"] else []

/-- The place one folder further up. The root is above itself. -/
def up (here : List String) : List String :=
  match here.getLast? with
  | none | some ".." => here ++ [".."]
  | some "/" => here
  | some _ => here.dropLast

def nameLimit : Nat := 255

def pathLimit : Nat := 4096

def isTooLong (name : String) : Bool := nameLimit < name.utf8ByteSize

def objection? (path : String) : Option DeviceFailure :=
  if path.toList.contains '\x00' then some .zeroInName
  else if path.isEmpty || pathLimit ≤ path.utf8ByteSize then some .refused
  else none

def follow (folder : Folder) (here : List String) : List String → Place
  | [] => .folder
  | "" :: rest | "." :: rest => folder.follow here rest
  | ".." :: rest => folder.follow (up here) rest
  | name :: rest =>
    let there := here ++ [name]
    if isTooLong name then .nowhere
    else if folder.folders.contains there then folder.follow there rest
    else
      match folder.files.lookup there, rest with
      | some content, [] => .file there content
      | none, [] => .free there
      | _, _ :: _ => .nowhere

def locate (folder : Folder) (path : String) : Place :=
  if (objection? path).isSome then .nowhere else folder.follow (origin path) (steps path)

def hasPath (folder : Folder) (path : String) : Bool :=
  match folder.locate path with
  | .folder | .file .. => true
  | .free _ | .nowhere => false

def put (folder : Folder) (location : List String) (content : Bytes) : Folder :=
  { folder with files := (location, content) :: folder.files.filter (·.1 != location) }

def content? (folder : Folder) (path : String) : Option Bytes :=
  match folder.locate path with
  | .file _ content => some content
  | _ => none

def write (folder : Folder) (path : String) (content : Bytes) : Folder :=
  match folder.locate path with
  | .file location _ | .free location => folder.put location content
  | .folder | .nowhere => folder

/-- Makes the folders on a way that are missing; a file in the way stops it. -/
def makeFolders (here : List String) : List String → FolderAccess Unit
  | [] => return
  | "" :: rest | "." :: rest => makeFolders here rest
  | ".." :: rest => makeFolders (up here) rest
  | name :: rest => do
    let there := here ++ [name]
    let folder ← get
    if !folder.folders.contains there then
      if isTooLong name || (folder.files.lookup there).isSome then throw (.device .refused)
      set { folder with folders := there :: folder.folders }
    makeFolders there rest

def isStill (step : String) : Bool := step == "" || step == "."

/-- The steps of a path without those at its end that stay where they are. -/
def trimmed (steps : List String) : List String := (steps.reverse.dropWhile isStill).reverse

/-- The path of the folder that a path names something in; empty for the folder itself. -/
def parentPath (path : String) : String :=
  "/".intercalate (trimmed (trimmed (steps path)).dropLast)

def makeParents (path : String) : FolderAccess Unit := do
  let parent := parentPath path
  unless parent.isEmpty do
    if let some failure := objection? parent then throw (.device failure)
    makeFolders (origin path) (steps parent)

def openReadOnly (path : String) : FolderAccess OpenFile := do
  if let some failure := objection? path then throw (.device failure)
  match (← get).locate path with
  | .file _ content => return .ofContent content .readOnly
  | .folder => return .ofFolder
  | .free _ | .nowhere => throw (.device .refused)

def openOrCreate (path : String) : FolderAccess OpenFile := do
  if let some failure := objection? path then throw (.device failure)
  match (← get).locate path with
  | .file _ content => return .ofContent content .readWrite
  | .free location =>
    modify (·.put location [])
    return .ofContent [] .readWrite
  | .folder | .nowhere => throw (.device .refused)

/-- As `openOrCreate`, after the folders on the way have been made. -/
def openCreatingFolders (path : String) : FolderAccess OpenFile := do
  makeParents path
  openOrCreate path

end Folder

end AppendLog
