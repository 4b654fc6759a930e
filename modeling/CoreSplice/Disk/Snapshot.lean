import CoreSplice.Disk.Basic

/-!
# Disks made from what was found

A disk can be put together from names and what was found under them.  Links are not followed, so
that a name leads where its steps say.

* `Disk.Finding` — what was found under a name.
* `Disk.install` — the disk with one more finding.
-/

namespace CoreSplice.Disk

/-- What was found under a name. -/
inductive Finding where
  | file (content : Bytes)
  | directory
  | blocked (error : SystemError)

/-- The place that a step leads to, as the step says. -/
def follow (place : Place) (step : String) : Place :=
  if step = "." then place
  else if step = ".." then place.dropLast
  else place ++ [step]

/-- The place that a name says. -/
def placeOf (disk : Disk) (name : String) : Place :=
  (Path.steps name).foldl follow (if Path.isAbsolute name then [] else disk.home)

/-- The places that a name leads through, its own apart. -/
def placesBefore (place : Place) : List String → List Place
  | [] => []
  | step :: steps => place :: placesBefore (follow place step) steps

/-- The disk with what was found under a name.  The directories that the name leads through are
there as well. -/
def install (disk : Disk) (name : String) (finding : Finding) : Disk :=
  let place := disk.placeOf name
  let start := if Path.isAbsolute name then [] else disk.home
  let disk := { disk with directories := placesBefore start (Path.steps name) ++ disk.directories }
  match finding with
  | .file content =>
    if (disk.files.lookup place).isSome then disk
    else { disk with files := disk.files ++ [(place, content)] }
  | .directory => { disk with directories := place :: disk.directories }
  | .blocked error =>
    { disk with files := disk.files ++ [(place, [])], blocked := (place, error) :: disk.blocked }

end CoreSplice.Disk
