import ImageGallery.Config.Limits
import ImageGallery.Disk.Tree
import ImageGallery.Text.Utf8

/-!
# Configurations in files

A configuration is read from a file of a directory tree.
-/

namespace ImageGallery.Config

/-- The configuration in the file at a path. -/
def load (path : Disk.Path) (tree : Disk.Tree) : Except ConfigError Config :=
  match tree.read path with
  | .error error => .error (.system error)
  | .ok content =>
    match Text.decode? content with
    | none => .error .notText
    | some text => parse text

/-- The configuration in the file at a path, or the one that nothing is written in where the path
leads nowhere. -/
def loadOrDefault (path : Disk.Path) (tree : Disk.Tree) : Except ConfigError Config :=
  if tree.leadsSomewhere path then load path tree else .ok {}

end ImageGallery.Config
