import SymbolTree.Json
import SymbolTree.SourcePath

/-!
# Settings of a run

What a user can choose, its defaults, and the combinations that are refused before any work starts.
-/

namespace SymbolTree

/-- What to do with a link to an unknown id. -/
inductive BrokenLinks where
  | throw
  | «show»
  | hide
deriving DecidableEq, Repr

namespace BrokenLinks

/-- The name of a choice. -/
def text : BrokenLinks → String
  | .throw => "throw"
  | .show => "show"
  | .hide => "hide"

/-- The choice with a name. -/
def ofText? (name : String) : Option BrokenLinks :=
  [BrokenLinks.throw, .show, .hide].find? (·.text == name)

end BrokenLinks

/-- How symbols are divided among output files. -/
inductive OutputPolicy where
  /-- One output file per source file. -/
  | perFile
  /-- One output file per class. -/
  | perClass
  /-- One output file per source file, with classes lifted out of their namespaces. -/
  | liftClasses
deriving DecidableEq, Repr

namespace OutputPolicy

/-- The name of a policy. -/
def text : OutputPolicy → String
  | .perFile => "default"
  | .perClass => "split-by-class"
  | .liftClasses => "split-from-ns"

end OutputPolicy

/-- Section 15.6, `GlobalProfile`: a set of global objects that exist without being documented. -/
inductive GlobalProfile where
  | javascript
deriving DecidableEq, Repr

namespace GlobalProfile

/-- The global objects of a profile. -/
def objects : GlobalProfile → List String
  | .javascript =>
    ["Array", "Boolean", "Date", "Error", "Function", "JSON", "Math", "Number", "Object", "RegExp",
      "String"]

/-- The profile with a name. -/
def ofText? (name : String) : Option GlobalProfile :=
  if name = "javascript" ∨ name = "js" then some .javascript else none

end GlobalProfile

/-- Section 7, `ConfigError`: why settings are refused. -/
inductive SettingsError where
  /-- The settings file cannot be read. -/
  | unreadable
  /-- The settings file is malformed, or holds unknown or ill-typed options. -/
  | malformed
  /-- No renderer has this name. -/
  | unknownRenderer (name : String)
  /-- No set of global objects has this name. -/
  | unknownGlobalProfile (name : String)
  /-- Both split policies are chosen. -/
  | conflictingPolicies
  /-- An extension alias is not a pair. -/
  | malformedAlias (pair : String)
  /-- A part of output file names holds a path separator. -/
  | invalidAffix (field value : String)
deriving DecidableEq, Repr

namespace SettingsError

/-- The wording of an error. -/
def message : SettingsError → String
  | .unreadable => "failed to read config file"
  | .malformed => "failed to parse config"
  | .unknownRenderer name => "unknown renderer: " ++ name
  | .unknownGlobalProfile name =>
    "unknown global object profile '" ++ name ++ "', expected one of: javascript, js"
  | .conflictingPolicies => "split-by-class and split-from-ns cannot be combined"
  | .malformedAlias pair => "malformed extension alias '" ++ pair ++ "', expected `alias:extension`"
  | .invalidAffix field value =>
    "invalid " ++ field ++ " '" ++ value ++ "': must not contain path separators"

end SettingsError

/-- Section 12, `Config`: the settings of a run. -/
structure Settings where
  /-- Title of the documentation. -/
  title : String := "API documentation"
  /-- Output directory. -/
  output : SourcePath := ⟨"doc"⟩
  /-- Name of the renderer. -/
  renderer : String := "json"
  /-- One output file per class. -/
  splitByClass : Bool := false
  /-- Lift classes out of their namespaces. -/
  splitFromNamespace : Bool := false
  /-- Put before every output file name. -/
  namePrefix : Option String := none
  /-- Put after every output file name. -/
  nameSuffix : Option String := none
  /-- Report remarks about the source files. -/
  report : Bool := false
  /-- Report remarks instead of building a tree. -/
  reportOnly : Bool := false
  /-- What to do with broken links. -/
  brokenLinks : Option BrokenLinks := none
  /-- Extension aliases, written `alias:extension`. -/
  aliases : List String := []
  /-- Patterns of files to leave out. -/
  exclude : List String := []
  /-- Name of the set of global objects. -/
  globalObjects : Option String := none
  /-- Indent the written document. -/
  indent : Bool := false
  /-- Keep what the output directory holds. -/
  keepOutput : Bool := false
  /-- Fail on the first problem of the tree. -/
  strict : Bool := false
deriving DecidableEq, Repr, Inhabited

namespace Settings

/-- Section 4.6, `output_policy`: the chosen policy. Splitting by class comes first. -/
def policy (settings : Settings) : OutputPolicy :=
  if settings.splitByClass then .perClass
  else if settings.splitFromNamespace then .liftClasses
  else .perFile

/-- Cut an alias at its first colon. Both halves must hold something. -/
def aliasPair? (pair : String) : Option (String × String) :=
  let before := pair.toList.takeWhile (· ≠ ':')
  match pair.toList.dropWhile (· ≠ ':') with
  | _ :: after =>
    if before.isEmpty || after.isEmpty then none
    else some (String.ofList before, String.ofList after)
  | [] => none

/-- Section 6, `alias_pairs`: the extension aliases as pairs. -/
def aliasPairs (settings : Settings) : Except SettingsError (List (String × String)) :=
  settings.aliases.mapM fun pair =>
    match aliasPair? pair with
    | some halves => .ok halves
    | none => .error (.malformedAlias pair)

/-- Section 15.6, `global_profile`: the chosen set of global objects. -/
def globalProfile (settings : Settings) : Except SettingsError (Option GlobalProfile) :=
  match settings.globalObjects with
  | none => .ok none
  | some name =>
    match GlobalProfile.ofText? name with
    | some profile => .ok (some profile)
    | none => .error (.unknownGlobalProfile name)

/-- The chosen global objects. -/
def globals (settings : Settings) : Except SettingsError (List String) := do
  return match ← settings.globalProfile with
    | some profile => profile.objects
    | none => []

/-- A part of an output file name holds no path separator. -/
def checkAffix (field : String) : Option String → Except SettingsError Unit
  | none => .ok ()
  | some value =>
    if value.toList.any fun c => c == '/' || c == '\\' then .error (.invalidAffix field value)
    else .ok ()

/-- Section 12, `validate`: refuse options that cannot be combined or understood. -/
def validate (settings : Settings) : Except SettingsError Unit := do
  if settings.splitByClass && settings.splitFromNamespace then throw .conflictingPolicies
  checkAffix "prefix" settings.namePrefix
  checkAffix "suffix" settings.nameSuffix
  let _ ← settings.aliasPairs
  let _ ← settings.globalProfile

/-- Section 4.6, `partition_name`: an output file name with what goes before and after it. -/
def partitionName (settings : Settings) (base : String) : String :=
  settings.namePrefix.getD "" ++ base ++ settings.nameSuffix.getD ""

end Settings

end SymbolTree
