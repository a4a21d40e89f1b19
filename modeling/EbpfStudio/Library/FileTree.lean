/-
This file models a tree of files as a finite map from paths to files and directories.

A path is the list of its names from the root, which is always a directory. Operations return a new
tree or an error. Directories are made with all that lead to them, a file is written only below a
directory, and a renamed file replaces the one at the destination.
-/

import EbpfStudio.Library.Table

inductive FileNode (Contents : Type) where
  | file (contents : Contents)
  | directory
  deriving DecidableEq

abbrev TreePath := List String

abbrev FileTree (Contents : Type) := Table TreePath (FileNode Contents)

namespace FileTree

variable {Contents : Type}

def readFile (tree : FileTree Contents) (path : TreePath) : Option Contents :=
  match tree.lookup path with
  | some (.file contents) => some contents
  | _ => none

def isFile (tree : FileTree Contents) (path : TreePath) : Bool := (tree.readFile path).isSome

def isDir (tree : FileTree Contents) (path : TreePath) : Bool :=
  match path, tree.lookup path with
  | [], _ => true
  | _, some .directory => true
  | _, _ => false

def nameIn (directory path : TreePath) : Option String :=
  if path.dropLast = directory then path.getLast? else none

/-- The names in a directory. Their order is that of the table and means nothing. -/
def readDir (tree : FileTree Contents) (directory : TreePath) : List String :=
  tree.toPairs.filterMap fun entry => nameIn directory entry.1

def writeFile (tree : FileTree Contents) (path : TreePath) (contents : Contents) :
    FileTree Contents :=
  tree.insert path (.file contents)

/-- Make the directories of a path that are missing. A file in the way is an error. -/
def createDirAll (tree : FileTree Contents) (path : TreePath) : Option (FileTree Contents) :=
  path.inits.foldlM (fun tree directory =>
    if tree.isFile directory then none
    else if tree.isDir directory then some tree
    else some (tree.insert directory .directory)) tree

inductive FileError where
  | notFound | isADirectory | notADirectory
  deriving DecidableEq

def pathExists (tree : FileTree Contents) (path : TreePath) : Bool :=
  path.isEmpty || (tree.lookup path).isSome

def removeFile (tree : FileTree Contents) (path : TreePath) :
    Except FileError (FileTree Contents) :=
  match tree.lookup path with
  | some (.file _) => .ok (tree.erase path)
  | some .directory => .error .isADirectory
  | none => .error .notFound

/-- Move a file over whatever file is at the destination. Moving a directory is left out. -/
def renameFile (tree : FileTree Contents) (source destination : TreePath) :
    Except FileError (FileTree Contents) :=
  match tree.lookup source, tree.lookup destination with
  | some (.file _), some .directory => .error .isADirectory
  | some (.file contents), _ => .ok (writeFile (tree.erase source) destination contents)
  | some .directory, _ => .error .isADirectory
  | none, _ => .error .notFound

def openAppend (tree : FileTree Contents) (path : TreePath) (empty : Contents) :
    Except FileError (FileTree Contents) :=
  match tree.lookup path with
  | some (.file _) => .ok tree
  | some .directory => .error .isADirectory
  | none => if tree.isDir path.dropLast then .ok (tree.writeFile path empty) else .error .notFound

def appendFile {Byte : Type} (tree : FileTree (List Byte)) (path : TreePath) (more : List Byte) :
    Except FileError (FileTree (List Byte)) :=
  match tree.lookup path with
  | some (.file contents) => .ok (tree.writeFile path (contents ++ more))
  | some .directory => .error .isADirectory
  | none => .error .notFound

variable {tree : FileTree Contents} {directory path : TreePath} {name : String}

theorem nameIn_eq_some :
    nameIn directory path = some name ↔ path = directory ++ [name] := by
  unfold nameIn
  constructor
  · intro found
    obtain ⟨inside, last⟩ := Option.ite_none_right_eq_some.mp found
    obtain ⟨lead, rfl⟩ := List.getLast?_eq_some_iff.mp last
    rw [List.dropLast_concat] at inside
    rw [inside]
  · rintro rfl
    rw [List.dropLast_concat, if_pos rfl, List.getLast?_concat]

theorem nodup_readDir (tree : FileTree Contents) (directory : TreePath) :
    (tree.readDir directory).Nodup := by
  have keys := tree.keys_toPairs_nodup
  rw [List.Nodup, List.pairwise_map] at keys
  refine keys.filterMap _ fun first second different name named other sameName same => ?_
  rw [nameIn_eq_some] at named sameName
  rw [same] at named
  exact different (named.trans sameName.symm)

theorem mem_readDir :
    name ∈ tree.readDir directory ↔ (tree.lookup (directory ++ [name])).isSome = true := by
  unfold readDir
  rw [List.mem_filterMap, Option.isSome_iff_exists]
  constructor
  · rintro ⟨⟨path, node⟩, listed, named⟩
    rw [nameIn_eq_some] at named
    exact ⟨node, named ▸ Table.mem_toPairs.mp listed⟩
  · rintro ⟨node, found⟩
    exact ⟨(directory ++ [name], node), Table.mem_toPairs.mpr found, nameIn_eq_some.mpr rfl⟩

theorem isSome_lookup_of_isFile (isFile : tree.isFile path = true) :
    (tree.lookup path).isSome = true := by
  unfold FileTree.isFile readFile at isFile
  cases found : tree.lookup path with
  | none =>
    rw [found] at isFile
    cases isFile
  | some node => rfl

end FileTree
