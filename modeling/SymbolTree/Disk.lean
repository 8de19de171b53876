import SymbolTree.SourcePath

/-!
# Access to files

What a run needs from the place where its files are. Actions that can fail say whether they
succeeded.
-/

namespace SymbolTree

/-- Access to files and directories by path. -/
structure Disk (m : Type → Type) where
  /-- Whether a path leads anywhere, be it to a file, a directory or a device. -/
  isThere : SourcePath → m Bool
  /-- Whether a path leads to a file. -/
  isFile : SourcePath → m Bool
  /-- Whether a path leads to a directory. -/
  isDirectory : SourcePath → m Bool
  /-- The names inside a directory; none if there is no such directory. -/
  entries : SourcePath → m (List String)
  /-- The content of a file, if it can be read as text. -/
  readText : SourcePath → m (Option String)
  /-- Remove a directory with all that it holds. -/
  removeDirectory : SourcePath → m Bool
  /-- Make a directory and the directories that lead to it. -/
  makeDirectory : SourcePath → m Bool
  /-- Write a file, replacing an earlier one. -/
  writeText : SourcePath → String → m Bool

end SymbolTree
