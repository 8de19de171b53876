import SymbolTree.Document

/-!
# Renderings

A renderer turns a resolved tree into the content of one file inside the output directory. Writing it
is left to the caller.
-/

namespace SymbolTree

/-- Why a tree cannot be rendered. -/
inductive RenderError where
  /-- The output cannot be written. -/
  | unwritable
  /-- The settings do not allow a rendering. -/
  | refused (reason : String)
deriving DecidableEq, Repr

namespace RenderError

/-- The wording of an error. -/
def message : RenderError → String
  | .unwritable => "failed to write output"
  | .refused reason => reason

end RenderError

/-- A file to be written. -/
structure Rendering where
  /-- The file. -/
  target : SourcePath
  /-- Its content. -/
  content : String

/-- Section 15.5, `target`: the file of an output directory, which has the name of the directory. -/
def outputTarget (output : SourcePath) : Except RenderError SourcePath :=
  match output.fileName? with
  | some name => .ok (output.join (name ++ ".json"))
  | none => .error (.refused ("output path '" ++ output.text ++ "' has no file name"))

/-- Turns a tree into a file, under given settings and at a given date. -/
abbrev Renderer := Settings → (date : String) → ResolvedTree → Except RenderError Rendering

/-- Section 15.5, `render`: render the whole tree as one JSON document. -/
def renderDocument : Renderer := fun settings date tree => do
  let globals ← match settings.globals with
    | .ok globals => pure globals
    | .error error => throw (.refused error.message)
  let target ← outputTarget settings.output
  return ⟨target, (Document.ofTree tree settings.title date globals).text settings.indent⟩

end SymbolTree
