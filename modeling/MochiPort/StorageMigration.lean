import MochiPort.CrashPrograms
import MochiPort.RustText

/-! Moving the storage directory of an older version. -/

namespace MochiPort

open CrashPrograms Program

inductive StorageEntry
  | file (bytes : List UInt8)
  | directory
  deriving DecidableEq

def StorageEntry.bytes : StorageEntry → Option (List UInt8)
  | file bytes => some bytes
  | directory => none

/-- The two files of a storage directory that a migration writes. -/
inductive ManifestFile
  | storageMigration
  | pending
  deriving DecidableEq

def ManifestFile.name : ManifestFile → String
  | storageMigration => "storage-migration.json"
  | pending => ".mochiport-storage-migration.pending.json"

/-- A directory: the manifests, the temporary files of migrations, whose names nothing else has, and everything
else by its path. -/
structure StorageDirectory where
  data : List String → Option StorageEntry
  manifest : ManifestFile → Option StorageEntry
  temporaries : Nat

/-- Where a path leads to: into the directory to be moved, to where it is to be moved, or to another place. -/
inductive StoragePlace
  | source (inside : List String)
  | destination (inside : List String)
  | elsewhere (real : Option String) (legacy : Bool)
  deriving DecidableEq

structure StorageManifest where
  schemaVersion : Nat
  migrationId : String
  sourceDirectory : String
  destinationDirectory : String
  migratedAtMs : Nat
  deriving DecidableEq

/-- What the migration finds around it, and the printing and reading of JSON; two paths are equal as `PathBuf`
compares them. -/
structure StorageSurroundings (Path : Type) where
  place : Path → StoragePlace
  isSymlink : Path → Bool
  absolutize : Path → Path
  hasParent : Path → Bool
  startsWith : Path → Path → Bool
  join : Path → String → Path
  display : Path → String
  ofText : String → Path
  print : StorageManifest → List UInt8
  parse : List UInt8 → Option StorageManifest

structure StorageTree where
  source : Option StorageDirectory
  destination : Option StorageDirectory

def legacyDataNames : List String :=
  ["config.toml", "mochiport-state.json", "threadrelay-control.json", "codexhub-control.json",
    "mochiport-control.json", "threadrelay-daemon.lock", "codexhub-daemon.lock", "mochiport-daemon.lock", "runtimes"]

namespace StorageDirectory

def lookup (directory : StorageDirectory) (inside : List String) : Option StorageEntry :=
  if inside = [] then some .directory
  else if inside = [ManifestFile.storageMigration.name] then directory.manifest .storageMigration
  else if inside = [ManifestFile.pending.name] then directory.manifest .pending
  else directory.data inside

/-- `is_legacy_storage_directory` -/
def legacyAt (directory : StorageDirectory) (inside : List String) : Bool :=
  directory.lookup inside = some .directory && legacyDataNames.any fun name => (directory.lookup (inside ++ [name])).isSome

def setManifest (directory : StorageDirectory) (file : ManifestFile) (entry : Option StorageEntry) : StorageDirectory :=
  { directory with manifest := Function.update directory.manifest file entry }

end StorageDirectory

inductive StorageOp (Path : Type)
  | createDirAll (path : Path)
  | createParent (path : Path)
  | openLock (path : Path)
  | tryLock (path : Path)
  | pathExists (path : Path)
  | canonicalize (path : Path)
  | isLegacyStorageDirectory (path : Path)
  | symlinkMetadata (path : Path)
  | daemonIsActive (path : Path)
  | isFile (path : Path) (file : ManifestFile)
  | fileExists (path : Path) (file : ManifestFile)
  | readFile (path : Path) (file : ManifestFile)
  | createTemporary (path : Path)
  | writeTemporary (path : Path)
  | dropTemporary (path : Path)
  | persist (path : Path) (file : ManifestFile) (bytes : List UInt8)
  | removeFile (path : Path) (file : ManifestFile)
  | rename (source destination : Path)
  | syncDirectory (path : Path)
  | syncParent (path : Path)

/-- An operation answers whether it went through, or what it found. -/
def StorageOp.Answer {Path : Type} : StorageOp Path → Type
  | .canonicalize _ => Option StoragePlace
  | .symlinkMetadata _ => Option Bool
  | .daemonIsActive _ => Option Bool
  | .readFile _ _ => Option (List UInt8)
  | _ => Bool

def StorageOp.refusal {Path : Type} : (op : StorageOp Path) → op.Answer
  | .createDirAll _ => false
  | .createParent _ => false
  | .openLock _ => false
  | .tryLock _ => false
  | .pathExists _ => false
  | .canonicalize _ => none
  | .isLegacyStorageDirectory _ => false
  | .symlinkMetadata _ => none
  | .daemonIsActive _ => none
  | .isFile _ _ => false
  | .fileExists _ _ => false
  | .readFile _ _ => none
  | .createTemporary _ => false
  | .writeTemporary _ => false
  | .dropTemporary _ => false
  | .persist _ _ _ => false
  | .removeFile _ _ => false
  | .rename _ _ => false
  | .syncDirectory _ => false
  | .syncParent _ => false

inductive StorageFault
  | goesThrough
  | fails
  deriving DecidableEq

section Perform

variable {Path : Type} (around : StorageSurroundings Path)

/-- The directory that a path leads into, and the way inside. -/
def StorageTree.directoryAt (tree : StorageTree) : StoragePlace → Option (StorageDirectory × List String)
  | .source inside => tree.source.map (·, inside)
  | .destination inside => tree.destination.map (·, inside)
  | .elsewhere _ _ => none

def StorageTree.entryAt (tree : StorageTree) (path : Path) : Option StorageEntry :=
  (tree.directoryAt (around.place path)).bind fun found => found.1.lookup found.2

def StorageTree.canonical (tree : StorageTree) (path : Path) : Option StoragePlace :=
  match around.place path with
  | .elsewhere real legacy => if real.isSome then some (.elsewhere real legacy) else none
  | place => if (tree.entryAt around path).isSome then some place else none

def StorageTree.legacyAt (tree : StorageTree) (path : Path) : Bool :=
  match around.place path with
  | .elsewhere _ legacy => legacy
  | place => (tree.directoryAt place).any fun found => found.1.legacyAt found.2

def StorageTree.storageAt (tree : StorageTree) (path : Path) : Option StorageDirectory :=
  match around.place path with
  | .source [] => tree.source
  | .destination [] => tree.destination
  | _ => none

def StorageTree.setStorage (tree : StorageTree) (path : Path) (directory : StorageDirectory) : StorageTree :=
  match around.place path with
  | .source [] => { tree with source := some directory }
  | .destination [] => { tree with destination := some directory }
  | _ => tree

/-- Changes the storage directory that a path names, if that is possible. -/
def StorageTree.change (tree : StorageTree) (path : Path) (change : StorageDirectory → Option StorageDirectory) :
    Bool × StorageTree :=
  match (tree.storageAt around path).bind change with
  | some directory => (true, tree.setStorage around path directory)
  | none => (false, tree)

def StorageTree.move (tree : StorageTree) (source destination : Path) : Bool × StorageTree :=
  match around.place source, around.place destination, tree.source, tree.destination with
  | .source [], .destination [], some directory, none => (true, ⟨none, some directory⟩)
  | _, _, _, _ => (false, tree)

/-- The answer of an operation that goes through, and the tree after it. A manifest is published, and a directory
moved, in one piece. -/
def doStorageOp (op : StorageOp Path) (tree : StorageTree) : op.Answer × StorageTree :=
  match op with
  | .createDirAll _ => (true, tree)
  | .createParent _ => (true, tree)
  | .openLock _ => (true, tree)
  | .tryLock _ => (true, tree)
  | .pathExists path => ((tree.canonical around path).isSome, tree)
  | .canonicalize path => (tree.canonical around path, tree)
  | .isLegacyStorageDirectory path => (tree.legacyAt around path, tree)
  | .symlinkMetadata path =>
    (if around.isSymlink path then some false else (tree.entryAt around path).map (· = .directory), tree)
  | .daemonIsActive _ => (some false, tree)
  | .isFile path file =>
    ((tree.storageAt around path).any fun directory => (directory.manifest file).any (· ≠ .directory), tree)
  | .fileExists path file =>
    ((tree.storageAt around path).any fun directory => (directory.manifest file).isSome, tree)
  | .readFile path file =>
    ((tree.storageAt around path).bind fun directory => (directory.manifest file).bind StorageEntry.bytes, tree)
  | .createTemporary path =>
    tree.change around path fun directory => some { directory with temporaries := directory.temporaries + 1 }
  | .writeTemporary _ => (true, tree)
  | .dropTemporary path =>
    tree.change around path fun directory => some { directory with temporaries := directory.temporaries - 1 }
  | .persist path file bytes =>
    tree.change around path fun directory =>
      if directory.manifest file = some .directory then none
      else some { directory.setManifest file (some (.file bytes)) with temporaries := directory.temporaries - 1 }
  | .removeFile path file =>
    tree.change around path fun directory =>
      (directory.manifest file).bind fun entry =>
        if entry = .directory then none else some (directory.setManifest file none)
  | .rename source destination => tree.move around source destination
  | .syncDirectory _ => (true, tree)
  | .syncParent _ => (true, tree)

def performStorageOp (op : StorageOp Path) (fault : StorageFault) (tree : StorageTree) : op.Answer × StorageTree :=
  match fault with
  | .goesThrough => doStorageOp around op tree
  | .fails => (op.refusal, tree)

def storageMachine : Machine (StorageOp Path) StorageOp.Answer StorageFault StorageTree where
  perform := performStorageOp around
  calm := .goesThrough

end Perform

inductive StorageError (Path : Type)
  | noParent
  | createParent (destination : Path)
  | openLock (destination : Path)
  | alreadyRunning (destination : Path)
  | daemonLock (path : Path)
  | daemonRunning (path : Path)
  | destinationExists (destination : Path)
  | readManifest (path : Path) (file : ManifestFile)
  | invalidManifest (path : Path) (file : ManifestFile)
  | otherDestination (destination : Path)
  | bothPresent (destination : Path)
  | migratedFromElsewhere (destination source : Path)
  | remainingLegacyDirectory (destination : Path)
  | alreadyStorageDirectory (source : Path)
  | notDetected (source : Path)
  | noLegacyStorage
  | multipleLegacyStorage (candidates : List Path)
  | destinationInsideSource (destination source : Path)
  | inspectSource (source : Path)
  | notRealDirectory (source : Path)
  | notLegacyStorage (source : Path)
  | pendingOfAnother (source : Path)
  | createDirectory (path : Path)
  | prepareManifest (path : Path) (file : ManifestFile)
  | writeManifest (path : Path) (file : ManifestFile)
  | publishManifest (path : Path) (file : ManifestFile)
  | syncDirectory (path : Path)
  | move (source destination : Path)
  deriving DecidableEq

structure StorageReport (Path : Type) where
  sourceDirectory : Path
  destinationDirectory : Path
  manifestPath : Path
  migrated : Bool
  deriving DecidableEq

structure StorageRequest (Path : Type) where
  requestedSource : Option Path
  destination : Path
  legacyCandidates : List Path

/-- What a call draws from outside: a UUID and the time. -/
structure StorageCall where
  migrationId : String
  nowMs : Nat
  migrationId_ne : RustText.trim migrationId ≠ ""

abbrev StorageProgram (Path : Type) : Type → Type := Program (StorageOp Path) StorageOp.Answer (StorageError Path)

section Programs

variable {Path : Type} [DecidableEq Path] (around : StorageSurroundings Path)

def pathExists (path : Path) : StorageProgram Path Bool := ask (StorageOp.pathExists path)

def canonicalize (path : Path) : StorageProgram Path (Option StoragePlace) :=
  ask (StorageOp.canonicalize path)

def isLegacyStorageDirectory (path : Path) : StorageProgram Path Bool :=
  ask (StorageOp.isLegacyStorageDirectory path)

def symlinkMetadata (path : Path) : StorageProgram Path (Option Bool) := ask (StorageOp.symlinkMetadata path)

def daemonIsActive (path : Path) : StorageProgram Path (Option Bool) := ask (StorageOp.daemonIsActive path)

def isFile (path : Path) (file : ManifestFile) : StorageProgram Path Bool := ask (StorageOp.isFile path file)

def manifestExists (path : Path) (file : ManifestFile) : StorageProgram Path Bool :=
  ask (StorageOp.fileExists path file)

def readFile (path : Path) (file : ManifestFile) : StorageProgram Path (Option (List UInt8)) :=
  ask (StorageOp.readFile path file)

def createTemporary (path : Path) : StorageProgram Path Bool := ask (StorageOp.createTemporary path)

def writeTemporary (path : Path) : StorageProgram Path Bool := ask (StorageOp.writeTemporary path)

def dropTemporary (path : Path) : StorageProgram Path Bool := ask (StorageOp.dropTemporary path)

def persistManifest (path : Path) (file : ManifestFile) (bytes : List UInt8) : StorageProgram Path Bool :=
  ask (StorageOp.persist path file bytes)

def removeManifest (path : Path) (file : ManifestFile) : StorageProgram Path Bool :=
  ask (StorageOp.removeFile path file)

def renameDirectory (source destination : Path) : StorageProgram Path Bool :=
  ask (StorageOp.rename source destination)

def createDirAll (path : Path) : StorageProgram Path Bool := ask (StorageOp.createDirAll path)

def createParent (path : Path) : StorageProgram Path Bool := ask (StorageOp.createParent path)

def openLock (path : Path) : StorageProgram Path Bool := ask (StorageOp.openLock path)

def tryLock (path : Path) : StorageProgram Path Bool := ask (StorageOp.tryLock path)

def syncDirectory (path : Path) : StorageProgram Path Bool := ask (StorageOp.syncDirectory path)

def syncParent (path : Path) : StorageProgram Path Bool := ask (StorageOp.syncParent path)

def orFail (attempt : StorageProgram Path Bool) (error : StorageError Path) : StorageProgram Path Unit := do
  if ← attempt then pure () else .fail error

def samePath (left right : Path) : StorageProgram Path Bool := do
  let leftPlace ← canonicalize left
  let rightPlace ← canonicalize right
  match leftPlace, rightPlace with
  | some leftPlace, some rightPlace => pure (leftPlace = rightPlace)
  | none, none => pure (left = right)
  | _, _ => pure false

def anySamePath (paths : List Path) (path : Path) : StorageProgram Path Bool :=
  match paths with
  | [] => pure false
  | seen :: paths => do if ← samePath seen path then pure true else anySamePath paths path

def deduplicatePaths (result : List Path) : List Path → StorageProgram Path (List Path)
  | [] => pure result
  | path :: paths => do
    if ← anySamePath result path then deduplicatePaths result paths else deduplicatePaths (result ++ [path]) paths

def acquireLock (destination : Path) : StorageProgram Path Unit := do
  if around.hasParent destination then
    orFail (createParent destination) (.createParent destination)
    orFail (openLock destination) (.openLock destination)
    orFail (tryLock destination) (.alreadyRunning destination)
  else .fail .noParent

def readManifest (path : Path) (file : ManifestFile) : StorageProgram Path StorageManifest := do
  match ← readFile path file with
  | none => .fail (.readManifest path file)
  | some bytes =>
    match around.parse bytes with
    | none => .fail (.invalidManifest path file)
    | some manifest => pure manifest

def storageMigrationSchemaVersion : Nat := 1

def validateManifestDestination (manifest : StorageManifest) (destination : Path) : StorageProgram Path Unit := do
  if manifest.schemaVersion ≠ storageMigrationSchemaVersion ∨ RustText.trim manifest.migrationId = "" then
    .fail (.otherDestination destination)
  else
    orFail (samePath (around.absolutize (around.ofText manifest.destinationDirectory)) destination)
      (.otherDestination destination)

def writeJsonAtomically (path : Path) (file : ManifestFile) (manifest : StorageManifest) : StorageProgram Path Unit := do
  orFail (createDirAll path) (.createDirectory path)
  orFail (createTemporary path) (.prepareManifest path file)
  if ← writeTemporary path then
    if ← persistManifest path file (around.print manifest ++ [10]) then
      orFail (syncDirectory path) (.syncDirectory path)
    else
      let _ ← dropTemporary path
      .fail (.publishManifest path file)
  else
    let _ ← dropTemporary path
    .fail (.writeManifest path file)

/-- Whether one of the candidates is a legacy directory other than the recorded source. -/
def anyOtherLegacy (recorded : Path) : List Path → StorageProgram Path Bool
  | [] => pure false
  | candidate :: candidates => do
    if ← isLegacyStorageDirectory candidate then
      if ← samePath candidate recorded then anyOtherLegacy recorded candidates else pure true
    else anyOtherLegacy recorded candidates

def reportCompletedMigration (requestedSource : Option Path) (destination : Path) (legacyCandidates : List Path)
    (manifest : StorageManifest) : StorageProgram Path (StorageReport Path) := do
  validateManifestDestination around manifest destination
  let recordedSource := around.absolutize (around.ofText manifest.sourceDirectory)
  let report : StorageReport Path :=
    ⟨recordedSource, destination, around.join destination ManifestFile.storageMigration.name, false⟩
  match requestedSource with
  | some requestedSource =>
    if ← samePath (around.absolutize requestedSource) recordedSource then pure report
    else .fail (.migratedFromElsewhere destination recordedSource)
  | none =>
    if ← anyOtherLegacy recordedSource legacyCandidates then .fail (.remainingLegacyDirectory destination)
    else pure report

/-- What `recover_or_report_completed_migration` does with a destination that has a pending manifest only. -/
def completePending (requestedSource : Option Path) (destination : Path) (legacyCandidates : List Path) :
    StorageProgram Path (StorageReport Path) := do
  let manifest ← readManifest around destination .pending
  validateManifestDestination around manifest destination
  if ← pathExists (around.ofText manifest.sourceDirectory) then .fail (.bothPresent destination)
  else
    writeJsonAtomically around destination .storageMigration manifest
    let _ ← removeManifest destination .pending
    orFail (syncDirectory destination) (.syncDirectory destination)
    reportCompletedMigration around requestedSource destination legacyCandidates manifest

def recoverOrReportCompletedMigration (requestedSource : Option Path) (destination : Path)
    (legacyCandidates : List Path) : StorageProgram Path (Option (StorageReport Path)) := do
  if ← pathExists destination then
    if ← isFile destination .storageMigration then
      let manifest ← readManifest around destination .storageMigration
      let report ← reportCompletedMigration around requestedSource destination legacyCandidates manifest
      pure (some report)
    else if ← isFile destination .pending then
      let report ← completePending around requestedSource destination legacyCandidates
      pure (some report)
    else pure none
  else pure none

def filterLegacy : List Path → StorageProgram Path (List Path)
  | [] => pure []
  | candidate :: candidates => do
    if ← isLegacyStorageDirectory candidate then
      let rest ← filterLegacy candidates
      pure (candidate :: rest)
    else filterLegacy candidates

def selectLegacySource (requestedSource : Option Path) (legacyCandidates : List Path) (destination : Path) :
    StorageProgram Path Path := do
  match requestedSource with
  | some source =>
    let source := around.absolutize source
    if ← samePath source destination then .fail (.alreadyStorageDirectory source)
    else if ← anySamePath legacyCandidates source then pure source
    else .fail (.notDetected source)
  | none =>
    match ← filterLegacy legacyCandidates with
    | [] => .fail .noLegacyStorage
    | [source] => pure source
    | candidates => .fail (.multipleLegacyStorage candidates)

def validateLegacySource (source : Path) : StorageProgram Path Unit := do
  match ← symlinkMetadata source with
  | none => .fail (.inspectSource source)
  | some false => .fail (.notRealDirectory source)
  | some true => orFail (isLegacyStorageDirectory source) (.notLegacyStorage source)

def requireNoDaemon (path : Path) : StorageProgram Path Unit := do
  match ← daemonIsActive path with
  | none => .fail (.daemonLock path)
  | some true => .fail (.daemonRunning path)
  | some false => pure ()

def newManifest (source destination : Path) (call : StorageCall) : StorageManifest where
  schemaVersion := storageMigrationSchemaVersion
  migrationId := call.migrationId
  sourceDirectory := around.display source
  destinationDirectory := around.display destination
  migratedAtMs := min call.nowMs 18446744073709551615

/-- The manifest that the directory is moved with: one that is there already, or a new one. -/
def pendingManifest (source destination : Path) (call : StorageCall) : StorageProgram Path StorageManifest := do
  if ← manifestExists source .pending then
    let pending ← readManifest around source .pending
    validateManifestDestination around pending destination
    orFail (samePath (around.absolutize (around.ofText pending.sourceDirectory)) source) (.pendingOfAnother source)
    pure pending
  else
    writeJsonAtomically around source .pending (newManifest around source destination call)
    pure (newManifest around source destination call)

/-- The move itself, once the source is known to be good. -/
def moveStorage (source destination : Path) (call : StorageCall) : StorageProgram Path (StorageReport Path) := do
  orFail (createParent destination) (.createParent destination)
  let manifest ← pendingManifest around source destination call
  orFail (renameDirectory source destination) (.move source destination)
  orFail (syncParent destination) (.syncDirectory destination)
  writeJsonAtomically around destination .storageMigration manifest
  let _ ← removeManifest destination .pending
  orFail (syncDirectory destination) (.syncDirectory destination)
  pure ⟨source, destination, around.join destination ManifestFile.storageMigration.name, true⟩

/-- What `migrate_storage_to` does when nothing is migrated yet. -/
def migrateSelected (requestedSource : Option Path) (destination : Path) (legacyCandidates : List Path)
    (call : StorageCall) : StorageProgram Path (StorageReport Path) := do
  requireNoDaemon destination
  if ← pathExists destination then .fail (.destinationExists destination)
  else
    let source ← selectLegacySource around requestedSource legacyCandidates destination
    if around.startsWith destination source then .fail (.destinationInsideSource destination source)
    else
      validateLegacySource source
      requireNoDaemon source
      moveStorage around source destination call

def migrateStorageTo (request : StorageRequest Path) (call : StorageCall) :
    StorageProgram Path (StorageReport Path) := do
  let destination := around.absolutize request.destination
  let legacyCandidates ← deduplicatePaths [] (request.legacyCandidates.map around.absolutize)
  acquireLock around destination
  match ← recoverOrReportCompletedMigration around request.requestedSource destination legacyCandidates with
  | some report => pure report
  | none => migrateSelected around request.requestedSource destination legacyCandidates call

end Programs

end MochiPort
