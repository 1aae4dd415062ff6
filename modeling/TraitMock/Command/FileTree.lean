import TraitMock.Command.SourcePath

/-!
# Command/FileTree — files in folders, and what is found under a path

A `FileTree` holds the files below the place where the program runs.  Looking up a path walks from
folder to folder; nothing is known of what lies outside but that the folders on the way up exist.
-/

namespace TraitMock.Command

/-- **What is found under the path of a source.** -/
inductive Source
  | missing
  | folder
  | file (bytes : List UInt8)
  deriving DecidableEq, Repr

/-- **A file by the names on the way to it.** -/
structure FileEntry where
  names : List String
  bytes : List UInt8

/-- **Files in their folders.** -/
abbrev FileTree := List FileEntry

/-- Where a walk through the folders has come to. -/
inductive Spot
  /-- A folder outside the tree. -/
  | outside
  /-- A folder of the tree, by the names on the way to it, the last one first. -/
  | folder (inward : List String)
  | file (bytes : List UInt8)
  | nowhere

/-- What is found at the end of a walk. -/
def Spot.source : Spot → Source
  | outside | folder _ => .folder
  | file bytes => .file bytes
  | nowhere => .missing

/-- The name of the folder around a folder. -/
def upName : String := ".."

namespace FileTree

/-- Going from a folder of the tree to what has a name in it. -/
def enter (tree : FileTree) (inward : List String) (name : String) : Spot :=
  let names := (name :: inward).reverse
  match tree.find? (·.names == names) with
  | some entry => .file entry.bytes
  | none => if tree.any (names.isPrefixOf ·.names) then .folder (name :: inward) else .nowhere

/-- One step of a walk.  No step leads out of a file, and none out of nowhere. -/
def step (tree : FileTree) : Spot → String → Spot
  | .outside, name => if name = upName then .outside else .nowhere
  | .folder inward, name =>
    if name = upName then
      match inward with
      | [] => .outside
      | _ :: inward => .folder inward
    else tree.enter inward name
  | .file _, _ => .nowhere
  | .nowhere, _ => .nowhere

/-- **What is found under a path.** -/
def lookup (tree : FileTree) (path : SourcePath) : Source :=
  let start : Spot := if path.root = .here then .folder [] else .outside
  (path.names.foldl tree.step start).source

end FileTree

end TraitMock.Command
