import Mathlib.Data.List.Lex
import Mathlib.Data.List.Sort
import MochiPort.RolloutScan

namespace MochiPort

abbrev FileName := List (Fin 256)

/-- The components of a path; paths are ordered component by component. -/
abbrev DiskPath := List FileName

inductive DiskEntry where
  | file (contents : List UInt8)
  | directory
  /-- What is neither a directory nor can be read. -/
  | other
  deriving DecidableEq

abbrev Disk := Table DiskPath DiskEntry

def FileName.toStr (name : FileName) : Option String := fileText (name.map UInt8.ofFin)

def rolloutPrefix : String := "rollout-"
def rolloutSuffix : String := ".jsonl"

def isRolloutFile (path : DiskPath) : Bool :=
  (path.getLast?.bind FileName.toStr).any fun name =>
    rolloutPrefix.toList.isPrefixOf name.toList && rolloutSuffix.toList.isSuffixOf name.toList

/-- The names of the day, the month and the year that a directory belongs to. -/
def dayNames (directory : DiskPath) : Option (String × String × String) :=
  match directory.reverse with
  | day :: month :: year :: _ => do
    let day ← day.toStr
    let month ← month.toStr
    let year ← year.toStr
    some (year, month, day)
  | _ => none

/-- The date in a path that ends with `<year>/<month>/<day>`, whatever the names are. -/
def dayDirectoryDate (directory : DiskPath) : Option String :=
  (dayNames directory).map fun (year, month, day) => year ++ "-" ++ month ++ "-" ++ day

/-- The day of a rollout file: of its directory if that is one of a day, else of its name. -/
def rolloutDayFromPath (path : DiskPath) : Option String :=
  ((dayDirectoryDate path.dropLast).bind sessionDateFromTimestamp).or do
    let name ← path.getLast?.bind FileName.toStr
    if rolloutPrefix.toList.isPrefixOf name.toList then
      let date ← ByteOffsets.get (String.ofList (name.toList.drop rolloutPrefix.length)) 0 10
      sessionDateFromTimestamp date
    else none

namespace Disk

variable (disk : Disk)

/-- The entries of a directory, in no particular order. -/
def readDir (parent : DiskPath) : List DiskPath :=
  (disk.entries.map Sigma.fst).filter fun path => path ≠ [] && path.dropLast = parent

def sortedDirectories (parent : DiskPath) : List DiskPath :=
  ((disk.readDir parent).filter fun path => disk.lookup path = some .directory).insertionSort (· ≤ ·)

def sortedRolloutFiles (directory : DiskPath) : List DiskPath :=
  ((disk.readDir directory).filter isRolloutFile).insertionSort (· ≤ ·)

/-- Every `<year>/<month>/<day>` directory, the newest last. -/
def dayDirectories (root : DiskPath) : List DiskPath :=
  ((disk.sortedDirectories root).flatMap fun year =>
    (disk.sortedDirectories year).flatMap disk.sortedDirectories).insertionSort (· ≤ ·)

def newestDayDirectories (root : DiskPath) (limit : Nat) : List DiskPath :=
  let days := disk.dayDirectories root
  days.drop (days.length - max limit 1)

/-- The rollout files inside the window, each with the day that its path gives. -/
def rolloutFiles (root : DiskPath) (windowDays : Nat) : List (Option String × DiskPath) :=
  let directories := disk.newestDayDirectories root windowDays
  if directories = [] then (disk.sortedRolloutFiles root).map fun path => (rolloutDayFromPath path, path)
  else
    directories.flatMap fun directory =>
      (disk.sortedRolloutFiles directory).map fun path => (dayDirectoryDate directory, path)

section

variable {F : Type} (codec : RolloutCodec F)

def scanFile (path : DiskPath) : Option (SessionScan F) :=
  match disk.lookup path with
  | some (.file contents) => (scanFrom codec contents 0).toOption.map Prod.fst
  | _ => none

/-- The session of a rollout file, unless the file cannot be read or has no samples. -/
def session (file : Option String × DiskPath) : Option (String × SessionScan F) :=
  ((disk.scanFile codec file.2).filter fun scan => scan.samples ≠ 0).map fun scan =>
    ((file.1.or (scan.sessionMeta.startedAt.bind sessionDateFromTimestamp)).getD "unknown", scan)

def scanRoots (roots : List DiskPath) (windowDays : Nat) : List (String × SessionScan F) :=
  roots.flatMap fun root => (disk.rolloutFiles root windowDays).filterMap (disk.session codec)

end

end Disk

end MochiPort
