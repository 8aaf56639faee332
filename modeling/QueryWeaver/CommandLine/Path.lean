import QueryWeaver.Text.Basic
/-!
Path texts: parts between slashes, and the change of a file's extension.
-/

namespace QueryWeaver

namespace Path

/-- Drops, from the end of a path read backwards, what names no file: slashes and single dots. -/
def dropTail : Text → Text
  | '/' :: r => dropTail r
  | '.' :: '/' :: r => dropTail r
  | t => t

/-- The stem of a file name: all before its last dot, unless nothing is. -/
def stem (name : Text) : Text :=
  match Text.cutLast ['.'] name with
  | some ([], _) => name
  | some (before, _) => before
  | none => name

/-- The extension of a file name: what stands after its stem and a dot. -/
def extension (name : Text) : Text := name.drop ((stem name).length + 1)

def isFileName (name : Text) : Bool := !name.isEmpty && name != ['.'] && name != ['.', '.']

/-- What stands before the file name of a path, and the file name. -/
def fileName? (path : Text) : Option (Text × Text) :=
  let core := dropTail path.reverse
  let name := (core.takeWhile (· != '/')).reverse
  if isFileName name then some ((core.dropWhile (· != '/')).reverse, name) else none

/-- Puts an extension in the place of all that follows the stem. A path that names no file stays. -/
def replaceExtension (extension path : Text) : Text :=
  match fileName? path with
  | some (directory, name) => directory ++ stem name ++ ['.'] ++ extension
  | none => path

/-- The path of the file beside this one that differs from it in the extension. As many characters
as the old extension has are dropped first, and what is left may be a directory. -/
def withExtension (new path : Text) : Text :=
  let old := ((fileName? path).map fun (_, name) => extension name).getD []
  replaceExtension new (path.take (path.length - old.length))

end Path
end QueryWeaver
