/-!
# Paths of files

The **name** of a file is the last segment of its path. The name has a **stem**, which goes
up to its last dot, if that is not its first character. The pipeline of a workflow is
written beside it, to the file of the same stem with the ending `.lock.yml`. A stem that is
nothing but a dot leaves two dots when what follows it is taken off; these name the folder
above, so that no ending can be put to them.

## Main definitions

* `Path.stem`: the stem of the name of a file.
* `Path.lockFile`: where the pipeline of a workflow is written to.
-/

namespace AgentPipeline.Path

/-- The characters up to the last one that satisfies `p`, that one included. -/
def throughLast (p : Char → Bool) (cs : List Char) : List Char :=
  (cs.reverse.dropWhile fun c => !p c).reverse

/-- The characters behind the last one that satisfies `p`. -/
def afterLast (p : Char → Bool) (cs : List Char) : List Char :=
  (cs.reverse.takeWhile fun c => !p c).reverse

/-- The part of a path in front of the name. -/
def folder (path : List Char) : List Char :=
  throughLast (· == '/') path

/-- The name of a file. -/
def name (path : List Char) : List Char :=
  afterLast (· == '/') path

/-- The stem of a name. -/
def stemOf (name : List Char) : List Char :=
  let before := (throughLast (· == '.') name).dropLast
  if before.isEmpty then name else before

/-- The stem of the name of a file. -/
def stem (path : String) : String :=
  String.ofList (stemOf (name path.toList))

/-- The name of the file beside a file with this stem that the pipeline is written to. -/
def lockName (stem : String) : String :=
  if stem = "." then ".." else stem ++ ".lock.yml"

/-- Where the pipeline of a workflow is written to. -/
def lockFile (path : String) : String :=
  String.ofList (folder path.toList) ++ lockName (stem path)

end AgentPipeline.Path
