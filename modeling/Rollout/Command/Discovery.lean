import Rollout.Config.Document

/-!
# Finding the workspace

The folder of a workspace is the nearest folder, from the current one upward, that holds the
workspace document, a configuration file or a repository; without any, the current folder.
-/

namespace Rollout.Command

/-- The entry of a folder that holds a repository. -/
def repositoryName : String := ".git"

/-- Whether a folder is marked as that of a workspace. -/
def isMarked (v : View) (document : String) (folder : Path) : Bool :=
  v.isFile (folder.child document) || v.isFile (folder.child Config.fileName) ||
    v.exists? (folder.child repositoryName)

/-- The nearest marked folder from `start` upward, or `start`. -/
def discover (v : View) (document : String) (start : Path) : Path :=
  (start.ancestors.find? (isMarked v document)).getD start

/-- The name of the document that marks a workspace. -/
def markingDocument (env : Config.Environment) : String :=
  ((env Config.documentVariable).bind Text.nonBlank?).getD ({} : Config).document

/-- The current folder by its path. -/
def currentFolder (v : View) : Path := Path.ofSegments true v.current

/-- Where a command works and how it is configured. -/
structure Context where
  root : Path
  config : Config
  json : Bool
  warnings : List Config.Warning

/-- The context of a command; `workspace` names the folder by hand. -/
def Context.find (v : View) (env : Config.Environment) (workspace : Option Path) (json : Bool) :
    Context :=
  let root := workspace.getD (discover v (markingDocument env) (currentFolder v))
  let (config, warnings) := Config.loadOrDefault v env root
  { root, config, json := json || config.json, warnings }

/-- The workspace document of a context. -/
def Context.document (c : Context) : Path := c.root.child c.config.document

end Rollout.Command
