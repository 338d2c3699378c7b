import ComponentBuild.Storage.Disk.Basic
import ComponentBuild.Storage.IgnoreFile

/-!
Searching a disk for files.

A search leaves out what the ignore files say between the root and an entry.
The nearest file with a rule for the entry decides.  Each directory may have an
ignore file of its own; those of a repository hold only up to its top, and say
something only where the directories' own files say nothing.  A search fails if
an ignore file above the directory in which it starts has a line that cannot be
read; such lines further down are passed over.
-/

namespace ComponentBuild

namespace Disk

/-! ## Ignore files -/

def ownIgnoreFile : Place := [".ignore"]
def sharedIgnoreFile : Place := [".gitignore"]
def excludeFile : Place := [".git", "info", "exclude"]

def repositoryMarks : List String := [".git", ".jj"]

def searchMarks : List Place :=
  [ownIgnoreFile, sharedIgnoreFile] ++ repositoryMarks.map ([·])
    ++ [excludeFile.dropLast, excludeFile]

def contentAt (d : Disk) (place : Place) : String :=
  match d.entry? place with
  | some (.file content) => content
  | _ => ""

def dirsAbove (place : Place) : List Place :=
  (List.range place.length).reverse.map place.take

abbrev RulesByDir := List (Place × List IgnoreRule)

def rulesByDir (d : Disk) (file : Place) : RulesByDir :=
  d.entries.entries.filterMap fun
    | (place, .file content) =>
        let dir := place.take (place.length - file.length)
        if dir ++ file = place then some (dir, IgnoreRule.ofContent content)
          else none
    | _ => none

def verdict? (rules : RulesByDir) (dirs : List Place) (place : Place)
    (isDir : Bool) :
    Option Bool :=
  dirs.findSome? fun dir =>
    (rules.lookup dir).bind fun rules =>
      IgnoreRule.verdict? rules ("/".intercalate (place.drop dir.length)) isDir

/-- Of directories, the nearest first, those up to the top of a repository; none
if there is none. -/
def upToTop (tops : List Place) (dirs : List Place) : List Place :=
  match dirs with
  | [] => []
  | dir :: above =>
      if tops.contains dir then [dir]
      else
        match upToTop tops above with
        | [] => []
        | found => dir :: found

structure SearchRules where
  own : RulesByDir
  shared : RulesByDir
  excluded : RulesByDir
  tops : List Place

def searchRules (d : Disk) : SearchRules where
  own := d.rulesByDir ownIgnoreFile
  shared := d.rulesByDir sharedIgnoreFile
  excluded := d.rulesByDir excludeFile
  tops := d.entries.entries.filterMap fun (place, _) =>
    if repositoryMarks.contains (place.getLast?.getD "")
      then some place.dropLast else none

/-- A search leaves an entry out if an ignore file says so, or, if none says
anything of it, when its name starts with a dot. -/
def SearchRules.isSkipped (r : SearchRules) (place : Place) (isDir : Bool) :
    Bool :=
  let dirs := dirsAbove place
  let inside := upToTop r.tops dirs
  let found := verdict? r.own dirs place isDir
    <|> verdict? r.shared inside place isDir
    <|> verdict? r.excluded inside place isDir
  found.getD ((place.getLast?.getD "").startsWith ".")

/-! ## Faults -/

def faultsAbove (d : Disk) (place : Place) : List String :=
  (dirsAbove place).reverse.flatMap fun dir =>
    [ownIgnoreFile, sharedIgnoreFile, excludeFile].flatMap fun file =>
      (IgnoreFault.ofContent (d.contentAt (dir ++ file))).map
        (·.message (placeText (dir ++ file)))

/-! ## Finding files -/

def SearchRules.isReached (rules : SearchRules) (top place : Place) : Bool :=
  (List.range (place.length - top.length)).all fun k =>
    let p := place.take (top.length + k + 1)
    !rules.isSkipped p (p != place)

def nameHasEnding (place : Place) (ending : String) : Bool :=
  (place.getLast?.getD "").endsWith ending

def findFiles (d : Disk) (dir : Path) (ending : String) :
    Except StorageError (List Path) :=
  match d.findDir dir with
  | .error _ => .error (.missing dir)
  | .ok top =>
      let faults := d.faultsAbove top
      if !faults.isEmpty then .error (.other ("\n".intercalate faults))
      else
        let rules := d.searchRules
        let found := (d.below top).filter fun (place, entry) =>
          entry != .dir && nameHasEnding place ending && rules.isReached top place
        let paths :=
          found.map fun (place, _) => (place.drop top.length).foldl Path.child dir
        .ok (Path.sorted paths)

end Disk

end ComponentBuild
