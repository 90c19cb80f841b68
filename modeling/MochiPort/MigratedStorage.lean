import Mathlib.Data.List.Find
import Mathlib.Logic.Equiv.List
import MochiPort.StorageRules

/-! Where the data is while a migration is cut off and started again. -/

namespace MochiPort

open CrashPrograms Finds List StorageTree

section Names

variable {Path : Type} (around : StorageSurroundings Path) (request : StorageRequest Path)

def StorageRequest.target : Path := around.absolutize request.destination

def StorageRequest.candidates : List Path := request.legacyCandidates.map around.absolutize

/-- The directory that is to be moved: the requested one, or the first candidate that leads to it. -/
def StorageRequest.source : Option Path :=
  match request.requestedSource with
  | some source => some (around.absolutize source)
  | none => (request.candidates around).find? fun candidate => around.place candidate = .source []

structure NamesMove (manifest : StorageManifest) : Prop where
  schema : manifest.schemaVersion = storageMigrationSchemaVersion
  id : RustText.trim manifest.migrationId ≠ ""
  destination : around.place (around.absolutize (around.ofText manifest.destinationDirectory)) = .destination []
  source : around.place (around.absolutize (around.ofText manifest.sourceDirectory)) = .source []
  requested : ∀ source ∈ request.requestedSource,
    around.absolutize (around.ofText manifest.sourceDirectory) = around.absolutize source

/-- A manifest of this move that was written before it. -/
structure NamesPlannedMove (manifest : StorageManifest) : Prop extends NamesMove around request manifest where
  target : around.absolutize (around.ofText manifest.destinationDirectory) = request.target around

def EntryOf (manifests : StorageManifest → Prop) (entry : Option StorageEntry) : Prop :=
  ∃ bytes manifest, entry = some (.file bytes) ∧ around.parse bytes = some manifest ∧ manifests manifest

/-- A directory that this move may leave behind: the data is as it was, and the manifests are of this move. -/
structure KeptStorage (data : List String → Option StorageEntry) (directory : StorageDirectory) : Prop where
  data_eq : directory.data = data
  migrated : directory.manifest .storageMigration = none ∨
    EntryOf around (NamesMove around request) (directory.manifest .storageMigration)
  pending : directory.manifest .pending = none ∨
    EntryOf around (NamesPlannedMove around request) (directory.manifest .pending)

/-- The move is done, or done but for the manifest that says so, and `final` rules the second out. -/
def Moved (data : List String → Option StorageEntry) (final : Prop) (tree : StorageTree) : Prop :=
  ∃ directory, tree = ⟨none, some directory⟩ ∧ KeptStorage around request data directory ∧
    (directory.manifest .storageMigration ≠ none ∨ ¬final ∧ directory.manifest .pending ≠ none)

def NotMoved (data : List String → Option StorageEntry) (tree : StorageTree) : Prop :=
  ∃ directory, tree = ⟨some directory, none⟩ ∧ KeptStorage around request data directory

def MigrationPhase (data : List String → Option StorageEntry) (tree : StorageTree) : Prop :=
  NotMoved around request data tree ∨ Moved around request data False tree

/-- A tree that the checks of `migrate_storage_to` pass, and what the recovery of an interrupted move needs besides:
paths that are texts, and no manifest that is not of this move. -/
structure Movable (directory : StorageDirectory) (source : Path) : Prop where
  absolutize_place : ∀ path, around.place (around.absolutize path) = around.place path
  parse_print : ∀ manifest, around.parse (around.print manifest ++ [10]) = some manifest
  target_place : around.place (request.target around) = .destination []
  target_text : around.absolutize (around.ofText (around.display (request.target around))) = request.target around
  parent : around.hasParent (request.target around) = true
  selected : request.source around = some source
  source_place : around.place source = .source []
  source_text : ∀ path, path = source ∨ path ∈ request.candidates around → around.place path = .source [] →
    around.absolutize (around.ofText (around.display path)) = path
  detected : ∃ candidate ∈ request.candidates around, around.place candidate = .source []
  outside : around.startsWith (request.target around) source = false
  real : around.isSymlink source = false
  legacy : directory.legacyAt [] = true
  only : request.requestedSource = none → ∀ candidate ∈ request.candidates around,
    legacyAt around ⟨some directory, none⟩ candidate = true → around.place candidate = .source []
  unlisted : request.requestedSource = none → ∀ candidate ∈ request.candidates around,
    legacyAt around ⟨none, some directory⟩ candidate = false
  kept : KeptStorage around request directory.data directory

end Names

section Facts

variable {Path : Type} {around : StorageSurroundings Path} {request : StorageRequest Path}
  {data : List String → Option StorageEntry} {directory other : StorageDirectory} {source : Path}

variable {manifests : StorageManifest → Prop}

theorem EntryOf.ne_directory {entry : Option StorageEntry}
    (h : entry = none ∨ EntryOf around manifests entry) : entry ≠ some .directory := by
  rcases h with rfl | ⟨bytes, manifest, rfl, _⟩
  · exact Option.some_ne_none _ ∘ Eq.symm
  · intro heq
    cases heq

theorem EntryOf.exists {entry : Option StorageEntry}
    (h : entry = none ∨ EntryOf around manifests entry) (hne : entry ≠ none) :
    ∃ bytes manifest, entry = some (.file bytes) ∧ around.parse bytes = some manifest ∧ manifests manifest :=
  h.resolve_left hne

section

variable (h : KeptStorage around request data directory)
include h

theorem KeptStorage.of_sameFiles (hsame : SameFiles directory other) : KeptStorage around request data other := by
  refine ⟨hsame.1.trans h.data_eq, ?_, ?_⟩
  · rw [hsame.2]
    exact h.migrated
  · rw [hsame.2]
    exact h.pending

section

variable (hother : KeptStorage around request data other)
include hother

theorem KeptStorage.legacyAt (inside : List String) : other.legacyAt inside = directory.legacyAt inside := by
  have hmarkers : (legacyDataNames.any fun name => (other.lookup (inside ++ [name])).isSome) =
      legacyDataNames.any fun name => (directory.lookup (inside ++ [name])).isSome := by
    have hname : ∀ name ∈ legacyDataNames, other.lookup (inside ++ [name]) = directory.lookup (inside ++ [name]) := by
      intro name hname
      have hnot : ∀ file : ManifestFile, inside ++ [name] ≠ [file.name] := by
        intro file heq
        have hlast := congrArg List.getLast? heq
        rw [List.getLast?_append_of_ne_nil _ (cons_ne_nil _ _), List.getLast?_singleton,
          List.getLast?_singleton] at hlast
        have hnames : ∀ file : ManifestFile, file.name ∉ legacyDataNames := by
          intro file
          cases file <;> decide
        exact hnames file (Option.some.inj hlast ▸ hname)
      rw [StorageDirectory.lookup, StorageDirectory.lookup, if_neg (append_ne_nil_of_right_ne_nil _ (cons_ne_nil _ _)),
        if_neg (hnot _), if_neg (hnot _), if_neg (append_ne_nil_of_right_ne_nil _ (cons_ne_nil _ _)),
        if_neg (hnot _), if_neg (hnot _), h.data_eq, hother.data_eq]
    rw [Bool.eq_iff_iff, any_eq_true, any_eq_true]
    constructor
    · rintro ⟨name, hmem, hfound⟩
      exact ⟨name, hmem, hname name hmem ▸ hfound⟩
    · rintro ⟨name, hmem, hfound⟩
      exact ⟨name, hmem, (hname name hmem).symm ▸ hfound⟩
  have hdirectory : (other.lookup inside = some .directory) ↔ (directory.lookup inside = some .directory) := by
    unfold StorageDirectory.lookup
    by_cases hroot : inside = []
    · rw [if_pos hroot, if_pos hroot]
    · rw [if_neg hroot, if_neg hroot]
      by_cases hfinal : inside = [ManifestFile.storageMigration.name]
      · rw [if_pos hfinal, if_pos hfinal]
        exact iff_of_false (EntryOf.ne_directory hother.migrated) (EntryOf.ne_directory h.migrated)
      · rw [if_neg hfinal, if_neg hfinal]
        by_cases hpending : inside = [ManifestFile.pending.name]
        · rw [if_pos hpending, if_pos hpending]
          exact iff_of_false (EntryOf.ne_directory hother.pending) (EntryOf.ne_directory h.pending)
        · rw [if_neg hpending, if_neg hpending, h.data_eq, hother.data_eq]
  rw [StorageDirectory.legacyAt, StorageDirectory.legacyAt, hmarkers, decide_eq_decide.mpr hdirectory]

theorem legacyAt_unmoved (path : Path) : legacyAt around ⟨some other, none⟩ path =
      legacyAt around ⟨some directory, none⟩ path := by
  unfold legacyAt
  cases around.place path with
  | source inside => exact h.legacyAt hother inside
  | destination inside | elsewhere real legacy => rfl

theorem legacyAt_moved (path : Path) : legacyAt around ⟨none, some other⟩ path =
      legacyAt around ⟨none, some directory⟩ path := by
  unfold legacyAt
  cases around.place path with
  | source inside | elsewhere real legacy => rfl
  | destination inside => exact h.legacyAt hother inside

end

end

variable {path : Path}

theorem canonical_source (h : around.place path = .source []) :
    canonical around ⟨some directory, none⟩ path = some (.source []) := by
  rw [canonical, h]
  rw [entryAt, h]
  rfl

variable {inside : List String}

theorem canonical_source_gone (h : around.place path = .source inside) :
    canonical around ⟨none, some directory⟩ path = none := by
  rw [canonical, h]
  rw [entryAt, h]
  rfl

theorem canonical_destination (h : around.place path = .destination []) :
    canonical around ⟨none, some directory⟩ path = some (.destination []) := by
  rw [canonical, h]
  rw [entryAt, h]
  rfl

theorem canonical_destination_missing (h : around.place path = .destination inside) :
    canonical around ⟨some directory, none⟩ path = none := by
  rw [canonical, h]
  rw [entryAt, h]
  rfl

theorem place_of_canonical {tree : StorageTree} (h : tree.canonical around path = some (.source inside)) :
    around.place path = .source inside := by
  unfold canonical at h
  cases hplace : around.place path with
  | elsewhere real legacy | destination found =>
    rw [hplace] at h
    dsimp only at h
    split at h
    next => cases h
    next => cases h
  | source found =>
    rw [hplace] at h
    dsimp only at h
    split at h
    next => exact Option.some.inj h
    next => cases h

theorem Moved.of_final {final : Prop} {tree : StorageTree} (h : Moved around request data True tree) :
    Moved around request data final tree := by
  obtain ⟨directory, htree, hkept, hmanifest | ⟨hnot, _⟩⟩ := h
  · exact ⟨directory, htree, hkept, Or.inl hmanifest⟩
  · exact absurd trivial hnot

@[simp] theorem setManifest_self (file : ManifestFile) (entry : Option StorageEntry) :
    (directory.setManifest file entry).manifest file = entry := by
  simp only [StorageDirectory.setManifest, Function.update_self]

theorem setManifest_of_ne {file other : ManifestFile} (h : other ≠ file) (entry : Option StorageEntry) :
    (directory.setManifest file entry).manifest other = directory.manifest other := by
  simp only [StorageDirectory.setManifest, Function.update_of_ne h]

theorem KeptStorage.publish (h : KeptStorage around request data directory)
    (hprint : ∀ manifest, around.parse (around.print manifest ++ [10]) = some manifest) {manifest : StorageManifest}
    (hnames : NamesMove around request manifest) {other : StorageDirectory}
    (hsame : SameFiles (directory.setManifest .storageMigration (some (.file (around.print manifest ++ [10])))) other) :
    KeptStorage around request data other ∧ other.manifest .storageMigration ≠ none := by
  have hfinal : other.manifest .storageMigration = some (.file (around.print manifest ++ [10])) := by
    rw [hsame.2, setManifest_self]
  have hpending : other.manifest .pending = directory.manifest .pending := by
    rw [hsame.2, setManifest_of_ne ManifestFile.noConfusion]
  refine ⟨⟨hsame.1.trans h.data_eq, Or.inr ⟨_, manifest, hfinal, hprint manifest, hnames⟩, ?_⟩, ?_⟩
  · rw [hpending]
    exact h.pending
  · rw [hfinal]
    exact Option.some_ne_none _

theorem KeptStorage.removePending (h : KeptStorage around request data directory) :
    KeptStorage around request data (directory.setManifest .pending none) := by
  refine ⟨h.data_eq, ?_, Or.inl (setManifest_self _ _)⟩
  exact h.migrated

end Facts

section Same

variable {Path : Type} [DecidableEq Path] {around : StorageSurroundings Path} {tree : StorageTree}

variable {left right : Path}

theorem same_of_canonical {place : StoragePlace} (hleft : tree.canonical around left = some place)
    (hright : tree.canonical around right = some place) : tree.same around left right = true := by
  rw [same, hleft, hright]
  exact decide_eq_true rfl

theorem same_self (path : Path) : tree.same around path path = true := by
  cases hplace : tree.canonical around path with
  | some place => exact same_of_canonical hplace hplace
  | none =>
    rw [same, hplace]
    exact decide_eq_true rfl

theorem same_of_none (hleft : tree.canonical around left = none) (hright : tree.canonical around right = none)
    (heq : left = right) : tree.same around left right = true := by
  rw [same, hleft, hright]
  exact decide_eq_true heq

theorem canonical_of_same {place : StoragePlace} (h : tree.same around left right = true)
    (hright : tree.canonical around right = some place) : tree.canonical around left = some place := by
  rw [same, hright] at h
  cases hleft : tree.canonical around left with
  | none =>
    rw [hleft] at h
    cases h
  | some found =>
    rw [hleft] at h
    exact congrArg some (of_decide_eq_true h)

theorem subset_deduplicate (result paths : List Path) {path : Path} (h : path ∈ result) :
    path ∈ tree.deduplicate around result paths := by
  induction paths generalizing result with
  | nil => exact h
  | cons next paths ih =>
    rw [deduplicate]
    split
    next => exact ih result h
    next => exact ih (result ++ [next]) (mem_append_left _ h)

theorem exists_same_deduplicate (result paths : List Path) {path : Path} (h : path ∈ paths) :
    ∃ kept ∈ tree.deduplicate around result paths, tree.same around kept path = true := by
  induction paths generalizing result with
  | nil => exact absurd h not_mem_nil
  | cons next paths ih =>
    rw [deduplicate]
    split
    next hseen =>
      rcases mem_cons.mp h with rfl | hlater
      · obtain ⟨seen, hmem, hsame⟩ := any_eq_true.mp hseen
        exact ⟨seen, subset_deduplicate result paths hmem, hsame⟩
      · exact ih result hlater
    next =>
      rcases mem_cons.mp h with rfl | hlater
      · exact ⟨path, subset_deduplicate _ paths (mem_append_right _ (mem_singleton.mpr rfl)), same_self path⟩
      · exact ih (result ++ [next]) hlater

theorem filter_deduplicate {chosen : Path → Bool} {place : StoragePlace} (result paths : List Path)
    (hchosen : ∀ path, path ∈ result ∨ path ∈ paths → (chosen path = true ↔ tree.canonical around path = some place)) :
    (tree.deduplicate around result paths).filter chosen =
      if result.filter chosen = [] then (paths.find? chosen).toList else result.filter chosen := by
  induction paths generalizing result with
  | nil =>
    split
    next hnone => exact hnone
    next => rfl
  | cons next paths ih =>
    have hresult : ∀ path, path ∈ result ∨ path ∈ paths → (chosen path = true ↔ tree.canonical around path = some place) :=
      fun path hpath => hchosen path (hpath.imp_right (mem_cons_of_mem next))
    have hnext := hchosen next (Or.inr mem_cons_self)
    rw [deduplicate]
    split
    next hseen =>
      rw [ih result hresult]
      by_cases hnone : result.filter chosen = []
      · rw [if_pos hnone, if_pos hnone]
        have hnot : chosen next = false := by
          by_contra htrue
          obtain ⟨seen, hmem, hsame⟩ := any_eq_true.mp hseen
          have hreal := canonical_of_same hsame (hnext.mp (Bool.not_eq_false _ ▸ htrue))
          exact absurd ((hchosen seen (Or.inl hmem)).mpr hreal) (filter_eq_nil_iff.mp hnone seen hmem)
        rw [List.find?_cons_of_neg (by rw [hnot]; exact Bool.false_ne_true)]
      · rw [if_neg hnone, if_neg hnone]
    next hfresh =>
      have hadded : ∀ path, path ∈ result ++ [next] ∨ path ∈ paths →
          (chosen path = true ↔ tree.canonical around path = some place) := by
        intro path hpath
        rcases hpath with hpath | hpath
        · rcases mem_append.mp hpath with hold | hnew
          · exact hchosen path (Or.inl hold)
          · exact hchosen path (Or.inr (mem_cons.mpr (Or.inl (mem_singleton.mp hnew))))
        · exact hresult path (Or.inr hpath)
      rw [ih (result ++ [next]) hadded, filter_append]
      by_cases htrue : chosen next = true
      · have hnone : result.filter chosen = [] := by
          apply filter_eq_nil_iff.mpr
          intro seen hmem hseen
          apply hfresh
          refine any_eq_true.mpr ⟨seen, hmem, ?_⟩
          exact same_of_canonical ((hchosen seen (Or.inl hmem)).mp hseen) (hnext.mp htrue)
        rw [hnone, nil_append, filter_cons_of_pos htrue, List.find?_cons_of_pos htrue, filter_nil,
          if_neg (cons_ne_nil _ _), if_pos rfl]
        rfl
      · rw [filter_cons_of_neg htrue, filter_nil, append_nil, List.find?_cons_of_neg htrue]

end Same

section Moved

variable {Path : Type} [DecidableEq Path] {around : StorageSurroundings Path} {request : StorageRequest Path}
  {calm : Prop} {inv : StorageTree → Prop} {start directory : StorageDirectory} {source : Path}

variable {candidates : List Path}

theorem reportCompleted_finds (hmovable : Movable around request start source) (hinv : inv ⟨none, some directory⟩)
    (hkept : KeptStorage around request start.data directory) {manifest : StorageManifest}
    (hnames : NamesMove around request manifest)
    (hcandidates : ∀ candidate ∈ candidates, candidate ∈ request.candidates around) :
    Finds around calm inv ⟨none, some directory⟩
      (reportCompletedMigration around request.requestedSource (request.target around) candidates manifest)
      fun report => report.migrated = false := by
  have hsame : same ⟨none, some directory⟩ around
      (around.absolutize (around.ofText manifest.destinationDirectory)) (request.target around) = true :=
    same_of_canonical (canonical_destination hnames.destination) (canonical_destination hmovable.target_place)
  refine bind (validateManifestDestination_finds hinv hnames.schema hnames.id hsame) fun _ _ => ?_
  cases hrequested : request.requestedSource with
  | some requested =>
    have hequal := hnames.requested requested (by rw [hrequested]; rfl)
    have hgone : canonical around ⟨none, some directory⟩ (around.absolutize requested) = none := by
      rw [← hequal]
      exact canonical_source_gone hnames.source
    have hsource := same_of_none hgone (canonical_source_gone hnames.source) hequal.symm
    refine bind (samePath_finds hinv _ _) fun answer hanswer => ?_
    cases answer with
    | true => exact pure rfl
    | false => exact ⟨rfl, fun hcalm => Bool.false_ne_true ((hanswer hcalm).trans hsource)⟩
  | none =>
    have hnone : ∀ candidate ∈ candidates, legacyAt around ⟨none, some directory⟩ candidate = false := by
      intro candidate hcandidate
      rw [legacyAt_moved hmovable.kept hkept]
      exact hmovable.unlisted hrequested candidate (hcandidates candidate hcandidate)
    refine bind (anyOtherLegacy_finds hinv _ candidates hnone) fun answer hanswer => ?_
    cases hanswer
    exact pure rfl

/-- How a call may end once the directory is moved: where a manifest says so already, nothing has changed. -/
def MovedEnds (around : StorageSurroundings Path) (request : StorageRequest Path) (start : StorageDirectory)
    (calm final : Prop) (tree : StorageTree) (last : StorageTree)
    (outcome : Except (StorageError Path) (StorageReport Path)) : Prop :=
  Moved around request start.data final last ∧
    (calm → Moved around request start.data True last ∧ (final → last = tree) ∧
      ∃ report, outcome = .ok report ∧ report.migrated = false)

variable {final : Prop}

omit [DecidableEq Path] in
theorem publish_safe {α : Type} (hmovable : Movable around request start source)
    (hkept : KeptStorage around request start.data directory)
    (hinv : ∀ tree, Moved around request start.data final tree → inv tree)
    (hpending : directory.manifest .storageMigration ≠ none ∨ ¬final ∧ directory.manifest .pending ≠ none)
    {manifest : StorageManifest} (hnames : NamesMove around request manifest)
    {ends : StorageTree → Except (StorageError Path) α → Prop} {next : StorageProgram Path α}
    (hnext : ∀ other, KeptStorage around request start.data other → other.manifest .storageMigration ≠ none →
      Program.Safe (storageMachine around) (CalmIf calm) inv ends ⟨none, some other⟩ next)
    (herror : ¬calm → ∀ other error, KeptStorage around request start.data other →
      (other.manifest .storageMigration ≠ none ∨ ¬final ∧ other.manifest .pending ≠ none) →
      ends ⟨none, some other⟩ (.error error)) :
    Program.Safe (storageMachine around) (CalmIf calm) inv ends ⟨none, some directory⟩ (do
      writeJsonAtomically around (request.target around) .storageMigration manifest
      let _ ← removeManifest (request.target around) .pending
      orFail (syncDirectory (request.target around)) (.syncDirectory (request.target around))
      next) := by
  have hholds := @holds_destination Path around _ hmovable.target_place
  have hmoved : ∀ other, KeptStorage around request start.data other →
      (other.manifest .storageMigration ≠ none ∨ ¬final ∧ other.manifest .pending ≠ none) →
      inv ⟨none, some other⟩ := fun other hother hmanifest => hinv _ ⟨other, rfl, hother, hmanifest⟩
  refine Program.Safe.bind (writeJsonAtomically_safe hholds (EntryOf.ne_directory hkept.migrated)
    (fun other hsame => ?_) fun other hsame => ?_)
  · have hother := hkept.of_sameFiles hsame
    have hmanifest : other.manifest .storageMigration ≠ none ∨ ¬final ∧ other.manifest .pending ≠ none := by
      rw [hsame.2]
      exact hpending
    exact ⟨hmoved other hother hmanifest, fun hcalm error => herror hcalm other error hother hmanifest⟩
  · obtain ⟨hother, hfinal⟩ := hkept.publish hmovable.parse_print hnames hsame
    refine ⟨hmoved other hother (Or.inl hfinal), ?_, fun hcalm error => herror hcalm other error hother (Or.inl hfinal)⟩
    have hrest : ∀ last, KeptStorage around request start.data last → last.manifest .storageMigration ≠ none →
        Program.Safe (storageMachine around) (CalmIf calm) inv ends ⟨none, some last⟩ (do
          orFail (syncDirectory (request.target around)) (.syncDirectory (request.target around))
          next) := by
      intro last hlast hmanifest
      exact andThen (orFail_finds (syncDirectory_finds (hmoved last hlast (Or.inl hmanifest)) _))
        (fun _ _ => hnext last hlast hmanifest) fun hcalm error => herror hcalm last error hlast (Or.inl hmanifest)
    have hremoved : (other.setManifest .pending none).manifest .storageMigration ≠ none := by
      exact hfinal
    refine Program.Safe.bind (removeManifest_safe hholds ⟨hmoved other hother (Or.inl hfinal), fun _ => ?_⟩
      ⟨hmoved _ hother.removePending (Or.inl hremoved), fun _ => ?_⟩)
    · exact hrest other hother hfinal
    · exact hrest _ hother.removePending hremoved

section

variable (hmovable : Movable around request start source)
include hmovable

section

variable (hkept : KeptStorage around request start.data directory)
include hkept

theorem completePending_safe (hinv : ∀ tree, Moved around request start.data final tree → inv tree)
    (hpending : directory.manifest .storageMigration ≠ none ∨ ¬final ∧ directory.manifest .pending ≠ none)
    (hthere : directory.manifest .pending ≠ none) (hfinal : final → ¬calm)
    (hcandidates : ∀ candidate ∈ candidates, candidate ∈ request.candidates around) :
    Program.Safe (storageMachine around) (CalmIf calm) inv
      (MovedEnds around request start calm final ⟨none, some directory⟩) ⟨none, some directory⟩
      (completePending around request.requestedSource (request.target around) candidates) := by
  have hends : ¬calm → ∀ other outcome, KeptStorage around request start.data other →
      (other.manifest .storageMigration ≠ none ∨ ¬final ∧ other.manifest .pending ≠ none) →
      MovedEnds around request start calm final ⟨none, some directory⟩ ⟨none, some other⟩ outcome :=
    fun hcalm other outcome hother hmanifest => ⟨⟨other, rfl, hother, hmanifest⟩, fun h => absurd h hcalm⟩
  have hstart : inv ⟨none, some directory⟩ := hinv _ ⟨directory, rfl, hkept, hpending⟩
  have herror : ¬calm → ∀ error, MovedEnds around request start calm final ⟨none, some directory⟩
      ⟨none, some directory⟩ (.error error) := fun hcalm error => hends hcalm directory _ hkept hpending
  have hholds := @holds_destination Path around _ hmovable.target_place
  obtain ⟨bytes, manifest, hentry, hparse, hnames⟩ := EntryOf.exists hkept.pending hthere
  refine andThen (readManifest_finds hstart (hholds.storageAt directory) hentry hparse) (fun value hvalue => ?_)
    herror
  cases hvalue
  have hsame : same ⟨none, some directory⟩ around
      (around.absolutize (around.ofText manifest.destinationDirectory)) (request.target around) = true :=
    same_of_canonical (canonical_destination hnames.destination) (canonical_destination hmovable.target_place)
  refine andThen (validateManifestDestination_finds hstart hnames.schema hnames.id hsame) (fun _ _ => ?_) herror
  refine andThen (pathExists_finds hstart _) (fun present hpresent => ?_) herror
  have hgone : around.place (around.ofText manifest.sourceDirectory) = .source [] := by
    rw [← hmovable.absolutize_place]
    exact hnames.source
  cases present with
  | true =>
    have hfound := hpresent.1 rfl
    rw [canonical_source_gone hgone] at hfound
    cases hfound
  | false =>
    refine publish_safe hmovable hkept hinv hpending hnames.toNamesMove (fun other hother hmanifest => ?_)
      fun hcalm other error hother hmanifest => hends hcalm other _ hother hmanifest
    have hmoved : Moved around request start.data True ⟨none, some other⟩ := ⟨other, rfl, hother, Or.inl hmanifest⟩
    refine Program.Safe.mono (fun tree outcome => ?_) (reportCompleted_finds hmovable (hinv _ hmoved.of_final) hother
      hnames.toNamesMove hcandidates)
    rintro ⟨rfl, hreport⟩
    cases outcome with
    | error error => exact hends hreport other _ hother (Or.inl hmanifest)
    | ok report => exact ⟨hmoved.of_final, fun hcalm => ⟨hmoved, fun h => absurd hcalm (hfinal h), report, rfl, hreport⟩⟩

theorem selectLegacySource_moved (hinv : inv ⟨none, some directory⟩) (hcalm : ¬calm)
    (hcandidates : ∀ candidate ∈ candidates, candidate ∈ request.candidates around) :
    Finds around calm inv ⟨none, some directory⟩
      (selectLegacySource around request.requestedSource candidates (request.target around)) fun path => path = source := by
  have hselected := hmovable.selected
  rw [StorageRequest.source] at hselected
  cases hrequested : request.requestedSource with
  | some requested =>
    rw [hrequested] at hselected
    cases hselected
    refine bind (samePath_finds hinv _ _) fun same _ => ?_
    cases same with
    | true => exact ⟨rfl, hcalm⟩
    | false =>
      refine bind (anySamePath_finds hinv _ _) fun any _ => ?_
      cases any with
      | true => exact pure rfl
      | false => exact ⟨rfl, hcalm⟩
  | none =>
    refine bind (filterLegacy_finds hinv candidates) fun out hout => ?_
    have hnone : out = [] := by
      apply eq_nil_iff_forall_not_mem.mpr
      intro path hpath
      have hlegacy := (hout.1 path hpath).2
      rw [legacyAt_moved hmovable.kept hkept, hmovable.unlisted hrequested path
        (hcandidates path (hout.1 path hpath).1)] at hlegacy
      cases hlegacy
    rw [hnone]
    exact ⟨rfl, hcalm⟩

theorem migrateSelected_moved (hinv : inv ⟨none, some directory⟩) (hcalm : ¬calm)
    (hcandidates : ∀ candidate ∈ candidates, candidate ∈ request.candidates around) (call : StorageCall) :
    Finds around calm inv ⟨none, some directory⟩
      (migrateSelected around request.requestedSource (request.target around) candidates call) fun _ => False := by
  refine bind (requireNoDaemon_finds hinv _) fun _ _ => bind (pathExists_finds hinv _) fun present _ => ?_
  cases present with
  | true => exact ⟨rfl, hcalm⟩
  | false =>
    refine bind (selectLegacySource_moved hmovable hkept hinv hcalm hcandidates) fun path hpath => ?_
    cases hpath
    rw [if_neg (by rw [hmovable.outside]; exact Bool.false_ne_true)]
    have hmissing : Finds around calm inv ⟨none, some directory⟩ (symlinkMetadata source) fun answer => answer = none := by
      refine ask_finds hinv rfl ?_ fun _ => rfl
      change (if around.isSymlink source = true then some false else
        (entryAt around ⟨none, some directory⟩ source).map fun entry => decide (entry = .directory)) = none
      rw [if_neg (by rw [hmovable.real]; exact Bool.false_ne_true), entryAt, hmovable.source_place]
      rfl
    have hinvalid : Finds around calm inv ⟨none, some directory⟩ (validateLegacySource source) fun _ => False := by
      refine bind hmissing fun answer hanswer => ?_
      cases hanswer
      exact ⟨rfl, hcalm⟩
    exact bind hinvalid fun _ h => absurd h not_false

end

theorem migrate_moved {tree : StorageTree} (hmoved : Moved around request start.data final tree)
    (hinv : ∀ tree, Moved around request start.data final tree → inv tree) (call : StorageCall) :
    Program.Safe (storageMachine around) (CalmIf calm) inv (MovedEnds around request start calm final tree) tree
      (migrateStorageTo around request call) := by
  obtain ⟨directory, rfl, hkept, hmanifest⟩ := hmoved
  have hstart : inv ⟨none, some directory⟩ := hinv _ ⟨directory, rfl, hkept, hmanifest⟩
  have hends : ¬calm → ∀ outcome, MovedEnds around request start calm final ⟨none, some directory⟩
      ⟨none, some directory⟩ outcome := fun hcalm outcome =>
    ⟨⟨directory, rfl, hkept, hmanifest⟩, fun h => absurd h hcalm⟩
  have hholds := @holds_destination Path around _ hmovable.target_place
  refine andThen (deduplicatePaths_finds hstart [] _) (fun candidates hout => ?_) fun hcalm error => hends hcalm _
  have hcandidates : ∀ candidate ∈ candidates, candidate ∈ request.candidates around :=
    fun candidate hcandidate => (hout.1 candidate hcandidate).resolve_left not_mem_nil
  refine andThen (acquireLock_finds hstart hmovable.parent) (fun _ _ => ?_) fun hcalm error => hends hcalm _
  have hoverlooked : ¬calm → Program.Safe (storageMachine around) (CalmIf calm) inv
      (MovedEnds around request start calm final ⟨none, some directory⟩) ⟨none, some directory⟩
      (migrateSelected around request.requestedSource (request.target around) candidates call) := by
    intro hcalm
    refine Program.Safe.mono (fun tree outcome => ?_) (migrateSelected_moved hmovable hkept hstart hcalm hcandidates call)
    rintro ⟨rfl, _⟩
    exact hends hcalm outcome
  refine Program.Safe.bind (andThen (pathExists_finds hstart _) (fun present hpresent => ?_) fun hcalm error =>
    hends hcalm _)
  cases present with
  | false =>
    refine hoverlooked fun hcalm => ?_
    have hseen := hpresent.2 hcalm
    change false = (canonical around ⟨none, some directory⟩ (request.target around)).isSome at hseen
    rw [canonical_destination hmovable.target_place] at hseen
    cases hseen
  | true =>
    refine andThen (isFile_finds hstart (hholds.storageAt directory) (EntryOf.ne_directory hkept.migrated))
      (fun published hpublished => ?_) fun hcalm error => hends hcalm _
    cases published with
    | true =>
      have hfinal := hpublished.1 rfl
      obtain ⟨bytes, manifest, hentry, hparse, hnames⟩ := EntryOf.exists hkept.migrated hfinal
      refine andThen (readManifest_finds hstart (hholds.storageAt directory) hentry hparse) (fun value hvalue => ?_)
        fun hcalm error => hends hcalm _
      cases hvalue
      refine andThen (reportCompleted_finds hmovable hstart hkept hnames hcandidates) (fun report hreport => ?_)
        fun hcalm error => hends hcalm _
      exact ⟨⟨directory, rfl, hkept, hmanifest⟩, fun _ =>
        ⟨⟨directory, rfl, hkept, Or.inl hfinal⟩, fun _ => rfl, report, rfl, hreport⟩⟩
    | false =>
      have hunpublished : calm → directory.manifest .storageMigration = none := fun hcalm => hpublished.2 hcalm rfl
      refine andThen (isFile_finds hstart (hholds.storageAt directory) (EntryOf.ne_directory hkept.pending))
        (fun pending hpending => ?_) fun hcalm error => hends hcalm _
      cases pending with
      | true =>
        have hfinal : final → ¬calm := by
          intro hfinal hcalm
          rcases hmanifest with hmanifest | ⟨hnot, _⟩
          · exact hmanifest (hunpublished hcalm)
          · exact hnot hfinal
        refine Program.Safe.bind (Program.Safe.mono (fun tree outcome => ?_) (completePending_safe hmovable hkept hinv
          hmanifest (hpending.1 rfl) hfinal hcandidates))
        intro hdone
        cases outcome with
        | error error | ok report => exact hdone
      | false =>
        refine hoverlooked fun hcalm => ?_
        rcases hmanifest with hmanifest | ⟨_, hmanifest⟩
        · exact hmanifest (hunpublished hcalm)
        · exact hmanifest (hpending.2 hcalm rfl)

end

end Moved

section NotMoved

variable {Path : Type} [DecidableEq Path] {around : StorageSurroundings Path} {request : StorageRequest Path}
  {calm : Prop} {inv : StorageTree → Prop} {start directory : StorageDirectory} {source : Path}

/-- How a call may end that starts before the move. -/
def NotMovedEnds (around : StorageSurroundings Path) (request : StorageRequest Path) (start : StorageDirectory)
    (calm : Prop) (last : StorageTree) (outcome : Except (StorageError Path) (StorageReport Path)) : Prop :=
  MigrationPhase around request start.data last ∧
    (calm → Moved around request start.data True last ∧ ∃ report, outcome = .ok report)

/-- A path that may be taken for the source: in a calm call it is the source itself. -/
structure Selectable (around : StorageSurroundings Path) (request : StorageRequest Path) (calm : Prop)
    (source path : Path) : Prop where
  place : around.place path = .source []
  text : around.absolutize (around.ofText (around.display path)) = path
  requested : ∀ requested ∈ request.requestedSource, path = around.absolutize requested
  selected : calm → path = source

variable {path : Path}

omit [DecidableEq Path] in
theorem newManifest_names (hmovable : Movable around request start source)
    (hpath : Selectable around request calm source path) (call : StorageCall) :
    NamesPlannedMove around request (newManifest around path (request.target around) call) where
  schema := rfl
  id := call.migrationId_ne
  destination := by
    rw [newManifest, hmovable.target_text]
    exact hmovable.target_place
  source := by
    rw [newManifest, hpath.text]
    exact hpath.place
  requested := by
    intro requested hrequested
    rw [newManifest, hpath.text]
    exact hpath.requested requested hrequested
  target := hmovable.target_text

omit [DecidableEq Path] in
theorem manifestExists_finds (hinv : inv ⟨some directory, none⟩) (hpath : around.place path = .source [])
    (file : ManifestFile) :
    Finds around calm inv ⟨some directory, none⟩ (manifestExists path file) fun answer =>
      answer = true → directory.manifest file ≠ none := by
  refine ask_finds hinv rfl (fun htrue => ?_) fun _ htrue => absurd htrue Bool.false_ne_true
  change ((storageAt around ⟨some directory, none⟩ path).any fun directory =>
    (directory.manifest file).isSome) = true at htrue
  rw [(holds_source hpath).storageAt directory, Option.any_some] at htrue
  intro hnone
  rw [hnone] at htrue
  cases htrue

section

variable (hmovable : Movable around request start source) (hkept : KeptStorage around request start.data directory)
include hmovable hkept

section

variable (hinv : ∀ tree, MigrationPhase around request start.data tree → inv tree)
include hinv

theorem pendingManifest_safe {α : Type} (hpath : Selectable around request calm source path) {call : StorageCall}
    {ends : StorageTree → Except (StorageError Path) α → Prop} {next : StorageManifest → StorageProgram Path α}
    (hnext : ∀ other manifest, KeptStorage around request start.data other → other.manifest .pending ≠ none →
      NamesPlannedMove around request manifest →
      Program.Safe (storageMachine around) (CalmIf calm) inv ends ⟨some other, none⟩ (next manifest))
    (herror : ¬calm → ∀ other error, KeptStorage around request start.data other → ends ⟨some other, none⟩ (.error error)) :
    Program.Safe (storageMachine around) (CalmIf calm) inv ends ⟨some directory, none⟩
      (pendingManifest around path (request.target around) call >>= next) := by
  have hunmoved : ∀ other, KeptStorage around request start.data other → inv ⟨some other, none⟩ :=
    fun other hother => hinv _ (Or.inl ⟨other, rfl, hother⟩)
  have hstart := hunmoved directory hkept
  have hfails : ¬calm → ∀ error, ends ⟨some directory, none⟩ (.error error) :=
    fun hcalm error => herror hcalm directory error hkept
  have hholds := @holds_source Path around _ hpath.place
  refine Program.Safe.bind (andThen (manifestExists_finds hstart hpath.place .pending) (fun present hpresent => ?_)
    hfails)
  cases present with
  | true =>
    obtain ⟨bytes, manifest, hentry, hparse, hnames⟩ := EntryOf.exists hkept.pending (hpresent rfl)
    refine andThen (readManifest_finds hstart (hholds.storageAt directory) hentry hparse) (fun value hvalue => ?_)
      hfails
    cases hvalue
    have hsame : same ⟨some directory, none⟩ around
        (around.absolutize (around.ofText manifest.destinationDirectory)) (request.target around) = true := by
      rw [hnames.target]
      exact same_self _
    refine andThen (validateManifestDestination_finds hstart hnames.schema hnames.id hsame) (fun _ _ => ?_) hfails
    have hsource : same ⟨some directory, none⟩ around
        (around.absolutize (around.ofText manifest.sourceDirectory)) path = true :=
      same_of_canonical (canonical_source hnames.source) (canonical_source hpath.place)
    refine andThen (orFail_finds ((samePath_finds hstart _ _).mono fun answer hanswer hcalm =>
      (hanswer hcalm).trans hsource)) (fun _ _ => ?_) hfails
    exact hnext directory manifest hkept (hpresent rfl) hnames
  | false =>
    have hnames := newManifest_names hmovable hpath call
    refine Program.Safe.bind (writeJsonAtomically_safe hholds (EntryOf.ne_directory hkept.pending)
      (fun other hsame => ?_) fun other hsame => ?_)
    · have hother := hkept.of_sameFiles hsame
      exact ⟨hunmoved other hother, fun hcalm error => herror hcalm other error hother⟩
    · have hentry : other.manifest .pending =
          some (.file (around.print (newManifest around path (request.target around) call) ++ [10])) := by
        rw [hsame.2, setManifest_self]
      have hother : KeptStorage around request start.data other := by
        refine ⟨hsame.1.trans hkept.data_eq, ?_, Or.inr ⟨_, _, hentry, hmovable.parse_print _, hnames⟩⟩
        rw [hsame.2, setManifest_of_ne ManifestFile.noConfusion]
        exact hkept.migrated
      have hthere : other.manifest .pending ≠ none := by
        rw [hentry]
        exact Option.some_ne_none _
      exact ⟨hunmoved other hother, hnext other _ hother hthere hnames,
        fun hcalm error => herror hcalm other error hother⟩

theorem moveStorage_safe (hpath : Selectable around request calm source path) (call : StorageCall) :
    Program.Safe (storageMachine around) (CalmIf calm) inv (NotMovedEnds around request start calm)
      ⟨some directory, none⟩ (moveStorage around path (request.target around) call) := by
  have hunmoved : ∀ other, KeptStorage around request start.data other →
      MigrationPhase around request start.data ⟨some other, none⟩ := fun other hother => Or.inl ⟨other, rfl, hother⟩
  have hmoved : ∀ other, KeptStorage around request start.data other →
      (other.manifest .storageMigration ≠ none ∨ ¬False ∧ other.manifest .pending ≠ none) →
      MigrationPhase around request start.data ⟨none, some other⟩ :=
    fun other hother hmanifest => Or.inr ⟨other, rfl, hother, hmanifest⟩
  have hends : ¬calm → ∀ tree outcome, MigrationPhase around request start.data tree →
      NotMovedEnds around request start calm tree outcome := fun hcalm tree outcome htree => ⟨htree, fun h => absurd h hcalm⟩
  refine andThen (orFail_finds (createParent_finds (hinv _ (hunmoved directory hkept)) _)) (fun _ _ => ?_)
    fun hcalm error => hends hcalm _ _ (hunmoved directory hkept)
  refine pendingManifest_safe hmovable hkept hinv hpath (fun other manifest hother hpending hnames => ?_)
    fun hcalm other error hother => hends hcalm _ _ (hunmoved other hother)
  have hplaced := hmoved other hother (Or.inr ⟨not_false, hpending⟩)
  refine Program.Safe.bind (orFail_safe (renameDirectory_safe hpath.place hmovable.target_place
    (hinv _ (hunmoved other hother)) ⟨hinv _ hplaced, ?_⟩ fun hcalm => hends hcalm _ _ (hunmoved other hother)))
  refine andThen (orFail_finds (syncParent_finds (hinv _ hplaced) _)) (fun _ _ => ?_)
    fun hcalm error => hends hcalm _ _ hplaced
  refine publish_safe hmovable hother (fun tree htree => hinv tree (Or.inr htree)) (Or.inr ⟨not_false, hpending⟩)
    hnames.toNamesMove (fun last hlast hmanifest => ?_)
    fun hcalm last error hlast hmanifest => hends hcalm _ _ (hmoved last hlast hmanifest)
  exact ⟨hmoved last hlast (Or.inl hmanifest), fun _ => ⟨⟨last, rfl, hlast, Or.inl hmanifest⟩, _, rfl⟩⟩

end

theorem filter_candidates (hrequested : request.requestedSource = none) :
    (deduplicate ⟨some directory, none⟩ around [] (request.candidates around)).filter
      (legacyAt around ⟨some directory, none⟩) = [source] := by
  have hroot : ∀ path, around.place path = .source [] → legacyAt around ⟨some directory, none⟩ path = true := by
    intro path hplace
    rw [legacyAt, hplace]
    exact (hmovable.kept.legacyAt hkept []).trans hmovable.legacy
  have honly : ∀ path ∈ request.candidates around,
      legacyAt around ⟨some directory, none⟩ path = true → around.place path = .source [] := by
    intro path hpath hlegacy
    rw [legacyAt_unmoved hmovable.kept hkept] at hlegacy
    exact hmovable.only hrequested path hpath hlegacy
  have hfilter := @filter_deduplicate Path _ around ⟨some directory, none⟩
    (legacyAt around ⟨some directory, none⟩) (.source []) [] (request.candidates around) (by
      intro path hpath
      have hmem := hpath.resolve_left not_mem_nil
      constructor
      · intro hlegacy
        exact canonical_source (honly path hmem hlegacy)
      · intro hcanonical
        exact hroot path (place_of_canonical hcanonical))
  have hselected := hmovable.selected
  rw [StorageRequest.source, hrequested] at hselected
  have hfind : (request.candidates around).find? (legacyAt around ⟨some directory, none⟩) = some source := by
    rw [← hselected]
    apply List.find?_congr
    intro path hpath
    rw [Bool.eq_iff_iff, decide_eq_true_iff]
    exact ⟨honly path hpath, hroot path⟩
  rw [hfilter, filter_nil, if_pos rfl, hfind]
  rfl

theorem selectLegacySource_finds (hinv : inv ⟨some directory, none⟩)
    {candidates : List Path} (hcandidates : ∀ candidate ∈ candidates, candidate ∈ request.candidates around)
    (hcalm : calm → candidates = deduplicate ⟨some directory, none⟩ around [] (request.candidates around)) :
    Finds around calm inv ⟨some directory, none⟩
      (selectLegacySource around request.requestedSource candidates (request.target around))
      (Selectable around request calm source) := by
  have hselected := hmovable.selected
  rw [StorageRequest.source] at hselected
  cases hrequested : request.requestedSource with
  | some requested =>
    rw [hrequested] at hselected
    cases hselected
    have hdifferent : StorageTree.same ⟨some directory, none⟩ around (around.absolutize requested)
        (request.target around) = false := by
      rw [StorageTree.same, canonical_source hmovable.source_place, canonical_destination_missing hmovable.target_place]
    refine bind (samePath_finds hinv _ _) fun same hsame => ?_
    cases same with
    | true => exact ⟨rfl, fun h => Bool.false_ne_true (hdifferent.symm.trans (hsame h).symm)⟩
    | false =>
      refine bind (anySamePath_finds hinv _ _) fun any hany => ?_
      cases any with
      | true =>
        refine pure ⟨hmovable.source_place, hmovable.source_text _ (Or.inl rfl) hmovable.source_place, ?_, fun _ => rfl⟩
        intro other hother
        rw [hrequested] at hother
        cases hother
        rfl
      | false =>
        refine ⟨rfl, fun h => ?_⟩
        obtain ⟨candidate, hcandidate, hplace⟩ := hmovable.detected
        obtain ⟨kept, hmem, hsame⟩ := @exists_same_deduplicate Path _ around ⟨some directory, none⟩ []
          (request.candidates around) candidate hcandidate
        have hkeptPlace := canonical_of_same hsame (canonical_source hplace)
        have hfound : (candidates.any fun seen =>
            StorageTree.same ⟨some directory, none⟩ around seen (around.absolutize requested)) = true := by
          rw [hcalm h]
          exact any_eq_true.mpr ⟨kept, hmem, same_of_canonical hkeptPlace (canonical_source hmovable.source_place)⟩
        exact Bool.false_ne_true ((hany h).trans hfound)
  | none =>
    refine bind (filterLegacy_finds hinv candidates) fun out hout => ?_
    have hsome : ∀ path ∈ out, calm → path = source := by
      intro path hpath h
      rw [hout.2 h, hcalm h, filter_candidates hmovable hkept hrequested] at hpath
      exact mem_singleton.mp hpath
    have hlength : calm → out = [source] := by
      intro h
      rw [hout.2 h, hcalm h, filter_candidates hmovable hkept hrequested]
    cases out with
    | nil => exact ⟨rfl, fun h => cons_ne_nil _ _ (hlength h).symm⟩
    | cons path rest =>
      cases rest with
      | cons another rest => exact ⟨rfl, fun h => cons_ne_nil _ _ (List.cons.inj (hlength h)).2⟩
      | nil =>
        have hmem := hout.1 path (mem_singleton.mpr rfl)
        have hlegacy := hmem.2
        rw [legacyAt_unmoved hmovable.kept hkept] at hlegacy
        have hplace := hmovable.only hrequested path (hcandidates path hmem.1) hlegacy
        refine pure ⟨hplace, hmovable.source_text path (Or.inr (hcandidates path hmem.1)) hplace, ?_,
          hsome path (mem_singleton.mpr rfl)⟩
        intro requested hmem
        rw [hrequested] at hmem
        cases hmem

end

omit [DecidableEq Path] in
theorem validateLegacySource_finds (hmovable : Movable around request start source)
    (hkept : KeptStorage around request start.data directory) (hinv : inv ⟨some directory, none⟩)
    (hpath : Selectable around request calm source path) :
    Finds around calm inv ⟨some directory, none⟩ (validateLegacySource path) fun _ => True := by
  have hmetadata : Finds around calm inv ⟨some directory, none⟩ (symlinkMetadata path) fun answer =>
      calm → answer = some true := by
    refine ask_finds hinv rfl (fun hcalm => ?_) fun hcalm h => absurd h hcalm
    change (if around.isSymlink path = true then some false else
      (entryAt around ⟨some directory, none⟩ path).map fun entry => decide (entry = .directory)) = some true
    rw [hpath.selected hcalm, if_neg (by rw [hmovable.real]; exact Bool.false_ne_true), entryAt,
      hmovable.source_place]
    rfl
  have hlegacy : legacyAt around ⟨some directory, none⟩ path = true := by
    rw [legacyAt, hpath.place]
    exact (hmovable.kept.legacyAt hkept []).trans hmovable.legacy
  refine bind hmetadata fun answer hanswer => ?_
  cases answer with
  | none => exact ⟨rfl, fun hcalm => Option.some_ne_none _ (hanswer hcalm).symm⟩
  | some real =>
    cases real with
    | false => exact ⟨rfl, fun hcalm => Bool.false_ne_true (Option.some.inj (hanswer hcalm))⟩
    | true => exact orFail_finds ((isLegacy_finds hinv path).mono fun answer hanswer hcalm => (hanswer.2 hcalm).trans hlegacy)

theorem migrate_notMoved (hmovable : Movable around request start source) {tree : StorageTree}
    (hunmoved : NotMoved around request start.data tree)
    (hinv : ∀ tree, MigrationPhase around request start.data tree → inv tree) (call : StorageCall) :
    Program.Safe (storageMachine around) (CalmIf calm) inv (NotMovedEnds around request start calm) tree
      (migrateStorageTo around request call) := by
  have hphase : MigrationPhase around request start.data tree := Or.inl hunmoved
  obtain ⟨directory, rfl, hkept⟩ := hunmoved
  have hstart := hinv _ hphase
  have hends : ¬calm → ∀ outcome, NotMovedEnds around request start calm ⟨some directory, none⟩ outcome :=
    fun hcalm outcome => ⟨hphase, fun h => absurd h hcalm⟩
  have hmissing : canonical around ⟨some directory, none⟩ (request.target around) = none :=
    canonical_destination_missing hmovable.target_place
  have habsent : ∀ present : Bool, (present = true →
      (canonical around ⟨some directory, none⟩ (request.target around)).isSome) → present = false := by
    intro present hpresent
    cases present with
    | false => rfl
    | true =>
      have hfound := hpresent rfl
      rw [hmissing] at hfound
      cases hfound
  refine andThen (deduplicatePaths_finds hstart [] _) (fun candidates hout => ?_) fun hcalm error => hends hcalm _
  have hcandidates : ∀ candidate ∈ candidates, candidate ∈ request.candidates around :=
    fun candidate hcandidate => (hout.1 candidate hcandidate).resolve_left not_mem_nil
  refine andThen (acquireLock_finds hstart hmovable.parent) (fun _ _ => ?_) fun hcalm error => hends hcalm _
  have hnothing : Finds around calm inv ⟨some directory, none⟩
      (recoverOrReportCompletedMigration around request.requestedSource (request.target around) candidates)
      fun report => report = none := by
    refine bind (pathExists_finds hstart _) fun present hpresent => ?_
    cases habsent present hpresent.1
    exact pure rfl
  refine andThen hnothing (fun report hreport => ?_) fun hcalm error => hends hcalm _
  cases hreport
  refine andThen (requireNoDaemon_finds hstart _) (fun _ _ => ?_) fun hcalm error => hends hcalm _
  refine andThen (pathExists_finds hstart _) (fun present hpresent => ?_) fun hcalm error => hends hcalm _
  cases habsent present hpresent.1
  refine andThen (selectLegacySource_finds hmovable hkept hstart hcandidates hout.2) (fun path hpath => ?_)
    fun hcalm error => hends hcalm _
  by_cases hinside : around.startsWith (around.absolutize request.destination) path = true
  · rw [if_pos hinside]
    refine hends (fun hcalm => ?_) _
    rw [hpath.selected hcalm] at hinside
    exact Bool.false_ne_true (hmovable.outside.symm.trans hinside)
  · rw [if_neg hinside]
    refine andThen (validateLegacySource_finds hmovable hkept hstart hpath) (fun _ _ => ?_)
      fun hcalm error => hends hcalm _
    refine andThen (requireNoDaemon_finds hstart _) (fun _ _ => ?_) fun hcalm error => hends hcalm _
    exact moveStorage_safe hmovable hkept hinv hpath call

end NotMoved

section Attempts

variable {Path : Type} [DecidableEq Path]

/-- A call of the migration, and what happens to its operations: it is cut off where the faults end. -/
structure StorageAttempt where
  call : StorageCall
  faults : List StorageFault

section Definitions

variable (around : StorageSurroundings Path) (request : StorageRequest Path)

def StorageAttempt.run (attempt : StorageAttempt) (tree : StorageTree) :
    StorageTree × Option (Except (StorageError Path) (StorageReport Path)) :=
  (migrateStorageTo around request attempt.call).run (storageMachine around) attempt.faults tree

/-- The call is neither cut off nor hit by a failure. -/
def StorageAttempt.Undisturbed (attempt : StorageAttempt) (tree : StorageTree) : Prop :=
  (∀ fault ∈ attempt.faults, fault = .goesThrough) ∧ (attempt.run around request tree).2 ≠ none

def afterAttempts (attempts : List StorageAttempt) (tree : StorageTree) : StorageTree :=
  attempts.foldl (fun tree attempt => (attempt.run around request tree).1) tree

end Definitions

/-- The data is all at the source, or all at the destination. -/
def Together (data : List String → Option StorageEntry) (tree : StorageTree) : Prop :=
  (tree.source.map StorageDirectory.data = some data ∧ tree.destination = none) ∨
    (tree.source = none ∧ tree.destination.map StorageDirectory.data = some data)

/-- The data is at the destination, with a manifest that names both directories. -/
def Arrived (around : StorageSurroundings Path) (data : List String → Option StorageEntry) (tree : StorageTree) : Prop :=
  ∃ directory bytes manifest, tree = ⟨none, some directory⟩ ∧ directory.data = data ∧
    directory.manifest .storageMigration = some (.file bytes) ∧ around.parse bytes = some manifest ∧
    around.place (around.absolutize (around.ofText manifest.sourceDirectory)) = .source [] ∧
    around.place (around.absolutize (around.ofText manifest.destinationDirectory)) = .destination []

variable {around : StorageSurroundings Path} {request : StorageRequest Path} {start : StorageDirectory}
  {source : Path} {tree : StorageTree}

variable {data : List String → Option StorageEntry}

omit [DecidableEq Path] in
theorem MigrationPhase.together (h : MigrationPhase around request data tree) : Together data tree := by
  rcases h with ⟨directory, rfl, hkept⟩ | ⟨directory, rfl, hkept, _⟩
  · exact Or.inl ⟨congrArg some hkept.data_eq, rfl⟩
  · exact Or.inr ⟨rfl, congrArg some hkept.data_eq⟩

omit [DecidableEq Path] in
theorem Moved.arrived (h : Moved around request data True tree) : Arrived around data tree := by
  obtain ⟨directory, htree, hkept, hmanifest | ⟨hnot, _⟩⟩ := h
  · obtain ⟨bytes, manifest, hentry, hparse, hnames⟩ := EntryOf.exists hkept.migrated hmanifest
    exact ⟨directory, bytes, manifest, htree, hkept.data_eq, hentry, hparse, hnames.source, hnames.destination⟩
  · exact absurd trivial hnot

section

variable (hmovable : Movable around request start source)
include hmovable

section

variable (hphase : MigrationPhase around request start.data tree)
include hphase

theorem attempt_phase (attempt : StorageAttempt) :
    MigrationPhase around request start.data (attempt.run around request tree).1 := by
  have hmeets : (migrateStorageTo around request attempt.call).Meets (storageMachine around) (CalmIf False)
      attempt.faults tree := Program.meets_of_forall fun fault _ op world hfalse => absurd hfalse not_false
  rcases hphase with hunmoved | hmoved
  · have hsafe := @migrate_notMoved Path _ around request False _ start source hmovable tree hunmoved (fun _ h => h) attempt.call
    exact (hsafe.run (Or.inl hunmoved) (fun _ _ hends => hends.1) hmeets).1
  · have hsafe := @migrate_moved Path _ around request False _ start source False hmovable tree hmoved (fun _ h => h) attempt.call
    exact Or.inr (hsafe.run hmoved (fun _ _ hends => hends.1) hmeets).1

omit hphase in
theorem attempt_moved (hmoved : Moved around request start.data True tree) (attempt : StorageAttempt) :
    Moved around request start.data True (attempt.run around request tree).1 := by
  have hmeets : (migrateStorageTo around request attempt.call).Meets (storageMachine around) (CalmIf False)
      attempt.faults tree := Program.meets_of_forall fun fault _ op world hfalse => absurd hfalse not_false
  have hsafe := @migrate_moved Path _ around request False _ start source True hmovable tree hmoved (fun _ h => h) attempt.call
  exact (hsafe.run hmoved (fun _ _ hends => hends.1) hmeets).1

theorem undisturbed_phase {attempt : StorageAttempt} (h : attempt.Undisturbed around request tree) :
    Moved around request start.data True (attempt.run around request tree).1 ∧
      ∃ report, (attempt.run around request tree).2 = some (.ok report) := by
  have hmeets : (migrateStorageTo around request attempt.call).Meets (storageMachine around) (CalmIf True)
      attempt.faults tree := Program.meets_of_forall fun fault hfault op world _ => h.1 fault hfault
  obtain ⟨outcome, houtcome⟩ := Option.ne_none_iff_exists'.mp h.2
  rcases hphase with hunmoved | hmoved
  · have hsafe := @migrate_notMoved Path _ around request True _ start source hmovable tree hunmoved (fun _ h => h) attempt.call
    have hends := (hsafe.run (Or.inl hunmoved) (fun _ _ hends => hends.1) hmeets).2 outcome houtcome
    obtain ⟨hdone, report, hreport⟩ := hends.2 trivial
    exact ⟨hdone, report, hreport ▸ houtcome⟩
  · have hsafe := @migrate_moved Path _ around request True _ start source False hmovable tree hmoved (fun _ h => h) attempt.call
    have hends := (hsafe.run hmoved (fun _ _ hends => hends.1) hmeets).2 outcome houtcome
    obtain ⟨hdone, _, report, hreport, _⟩ := hends.2 trivial
    exact ⟨hdone, report, hreport ▸ houtcome⟩

omit hphase in
theorem undisturbed_moved (hmoved : Moved around request start.data True tree) {attempt : StorageAttempt}
    (h : attempt.Undisturbed around request tree) :
    (attempt.run around request tree).1 = tree ∧
      ∃ report, (attempt.run around request tree).2 = some (.ok report) ∧ report.migrated = false := by
  have hmeets : (migrateStorageTo around request attempt.call).Meets (storageMachine around) (CalmIf True)
      attempt.faults tree := Program.meets_of_forall fun fault hfault op world _ => h.1 fault hfault
  obtain ⟨outcome, houtcome⟩ := Option.ne_none_iff_exists'.mp h.2
  have hsafe := @migrate_moved Path _ around request True _ start source True hmovable tree hmoved (fun _ h => h) attempt.call
  have hends := (hsafe.run hmoved (fun _ _ hends => hends.1) hmeets).2 outcome houtcome
  obtain ⟨_, hsame, report, hreport, hnot⟩ := hends.2 trivial
  exact ⟨hsame trivial, report, hreport ▸ houtcome, hnot⟩

theorem afterAttempts_phase (attempts : List StorageAttempt) :
    MigrationPhase around request start.data (afterAttempts around request attempts tree) := by
  induction attempts generalizing tree with
  | nil => exact hphase
  | cons attempt attempts ih => exact ih (attempt_phase hmovable hphase attempt)

end

theorem afterAttempts_moved (hmoved : Moved around request start.data True tree) (attempts : List StorageAttempt) :
    Moved around request start.data True (afterAttempts around request attempts tree) := by
  induction attempts generalizing tree with
  | nil => exact hmoved
  | cons attempt attempts ih => exact ih (attempt_moved hmovable hmoved attempt)

end

/-- A movable directory is never torn apart, whatever happens to the calls, and arrives with the first call that is
not disturbed; later calls change nothing. -/
theorem storage_migration (hmovable : Movable around request start source) :
    (∀ attempts, Together start.data (afterAttempts around request attempts ⟨some start, none⟩)) ∧
      (∀ attempts (attempt : StorageAttempt),
        attempt.Undisturbed around request (afterAttempts around request attempts ⟨some start, none⟩) →
        let result := attempt.run around request (afterAttempts around request attempts ⟨some start, none⟩)
        (∃ report, result.2 = some (.ok report)) ∧ Arrived around start.data result.1) ∧
      ∀ attempts (attempt : StorageAttempt) later (last : StorageAttempt),
        attempt.Undisturbed around request (afterAttempts around request attempts ⟨some start, none⟩) →
        let tree := afterAttempts around request later
          (attempt.run around request (afterAttempts around request attempts ⟨some start, none⟩)).1
        last.Undisturbed around request tree →
        (last.run around request tree).1 = tree ∧
          ∃ report, (last.run around request tree).2 = some (.ok report) ∧ report.migrated = false := by
  have hstart : MigrationPhase around request start.data ⟨some start, none⟩ := Or.inl ⟨start, rfl, hmovable.kept⟩
  have hphase := afterAttempts_phase hmovable hstart
  refine ⟨fun attempts => (hphase attempts).together, fun attempts attempt h => ?_, fun attempts attempt later last h hlast => ?_⟩
  · obtain ⟨hmoved, hreport⟩ := undisturbed_phase hmovable (hphase attempts) h
    exact ⟨hreport, hmoved.arrived⟩
  · have hmoved := (undisturbed_phase hmovable (hphase attempts) h).1
    exact undisturbed_moved hmovable (afterAttempts_moved hmovable hmoved later) hlast

end Attempts

section Renamed

def asciiText (text : String) : List UInt8 := text.toList.map fun c => c.toNat.toUInt8

def moveManifest : StorageManifest := ⟨1, "0", "/data/ThreadRelay", "/data/MochiPort", 0⟩

/-- The manifest of an earlier migration, of the older program to the directory that is now moved. -/
def earlierManifest : StorageManifest := ⟨1, "1", "/data/CodexHub", "/data/ThreadRelay", 0⟩

def manifestText (manifest : StorageManifest) : List UInt8 :=
  asciiText "\x7b\n  \"schemaVersion\": 1,\n  \"migrationId\": \"" ++ asciiText manifest.migrationId ++
    asciiText "\",\n  \"sourceDirectory\": \"" ++ asciiText manifest.sourceDirectory ++
    asciiText "\",\n  \"destinationDirectory\": \"" ++ asciiText manifest.destinationDirectory ++
    asciiText "\",\n  \"migratedAtMs\": 0\n\x7d"

def knownManifests : List StorageManifest := [moveManifest, earlierManifest]

def manifestFields (manifest : StorageManifest) : Nat × List Nat × List Nat × List Nat × Nat :=
  (manifest.schemaVersion, manifest.migrationId.toList.map Char.toNat, manifest.sourceDirectory.toList.map Char.toNat,
    manifest.destinationDirectory.toList.map Char.toNat, manifest.migratedAtMs)

def manifestOfFields (fields : Nat × List Nat × List Nat × List Nat × Nat) : StorageManifest :=
  ⟨fields.1, String.ofList (fields.2.1.map Char.ofNat), String.ofList (fields.2.2.1.map Char.ofNat),
    String.ofList (fields.2.2.2.1.map Char.ofNat), fields.2.2.2.2⟩

/-- Two directories side by side. The manifests in use have their JSON texts, the others texts of their own. -/
def sideBySide : StorageSurroundings String where
  place path :=
    if path = "/data/ThreadRelay" then .source []
    else if path = "/data/MochiPort" then .destination []
    else .elsewhere none false
  isSymlink _ := false
  absolutize path := path
  hasParent _ := true
  startsWith _ _ := false
  join path name := path ++ "/" ++ name
  display path := path
  ofText text := text
  print manifest :=
    if manifest ∈ knownManifests then manifestText manifest
    else List.replicate (Encodable.encode (manifestFields manifest)) 0
  parse bytes :=
    (knownManifests.find? fun manifest => manifestText manifest ++ [10] = bytes).or
      ((Encodable.decode (bytes.length - 1)).map manifestOfFields)

def moveRequest : StorageRequest String := ⟨none, "/data/MochiPort", ["/data/ThreadRelay", "/data/CodexHub"]⟩

def configData : List String → Option StorageEntry := fun path => if path = ["config.toml"] then some (.file []) else none

def earlierMoved : StorageDirectory where
  data := configData
  manifest
    | .storageMigration => some (.file (manifestText earlierManifest ++ [10]))
    | .pending => none
  temporaries := 0

def neverMoved : StorageDirectory := ⟨configData, fun _ => none, 0⟩

def moveCall : StorageCall := ⟨"0", 0, by decide⟩

/-- The call is cut off behind the move, before the manifest is written there. -/
def cutAttempt : StorageAttempt := ⟨moveCall, List.replicate 21 .goesThrough⟩

def fullAttempt : StorageAttempt := ⟨moveCall, List.replicate 50 .goesThrough⟩

set_option maxRecDepth 10000 in
/-- A directory that has been moved before is moved by one call, but if that one is cut off, the next one takes the
manifest of the earlier move for its own. -/
theorem earlier_manifest_blocks :
    (fullAttempt.run sideBySide moveRequest ⟨some earlierMoved, none⟩).2 =
        some (.ok ⟨"/data/ThreadRelay", "/data/MochiPort", "/data/MochiPort/storage-migration.json", true⟩) ∧
      (fullAttempt.run sideBySide moveRequest
        (afterAttempts sideBySide moveRequest [cutAttempt] ⟨some earlierMoved, none⟩)).2 =
        some (.error (.otherDestination "/data/MochiPort")) := by
  decide +kernel

theorem manifestOfFields_manifestFields (manifest : StorageManifest) :
    manifestOfFields (manifestFields manifest) = manifest := by
  have hchars : ∀ text : String, String.ofList ((text.toList.map Char.toNat).map Char.ofNat) = text := by
    intro text
    have hback : Char.ofNat ∘ Char.toNat = id := funext Char.ofNat_toNat
    rw [map_map, hback, map_id, String.ofList_toList]
  obtain ⟨schema, id, source, destination, time⟩ := manifest
  simp only [manifestOfFields, manifestFields, hchars]

theorem sideBySide_parse_print (manifest : StorageManifest) :
    sideBySide.parse (sideBySide.print manifest ++ [10]) = some manifest := by
  by_cases hknown : manifest ∈ knownManifests
  · rcases mem_pair.mp hknown with rfl | rfl
    · decide +kernel
    · decide +kernel
  · have hprint : sideBySide.print manifest = List.replicate (Encodable.encode (manifestFields manifest)) 0 :=
      if_neg hknown
    have hnone : (knownManifests.find? fun known => manifestText known ++ [10] =
        List.replicate (Encodable.encode (manifestFields manifest)) 0 ++ [10]) = none := by
      rw [List.find?_eq_none]
      intro known _ heq
      have hopen : (manifestText known ++ [10]).head? = some 123 := rfl
      rw [of_decide_eq_true heq] at hopen
      cases hcount : Encodable.encode (manifestFields manifest) with
      | zero =>
        rw [hcount] at hopen
        exact absurd hopen (by decide)
      | succ count =>
        rw [hcount, replicate_succ, cons_append, List.head?_cons] at hopen
        exact absurd hopen (by decide)
    rw [hprint]
    show ((knownManifests.find? fun known => manifestText known ++ [10] =
      List.replicate (Encodable.encode (manifestFields manifest)) 0 ++ [10]).or _) = some manifest
    rw [hnone, Option.none_or, length_append, length_replicate, length_singleton, Nat.add_sub_cancel,
      Encodable.encodek, Option.map_some, manifestOfFields_manifestFields]

theorem neverMoved_movable : Movable sideBySide moveRequest neverMoved "/data/ThreadRelay" where
  absolutize_place _ := rfl
  parse_print := sideBySide_parse_print
  target_place := by decide
  target_text := rfl
  parent := rfl
  selected := by decide
  source_place := by decide
  source_text _ _ _ := rfl
  detected := ⟨"/data/ThreadRelay", by decide, by decide⟩
  outside := rfl
  real := rfl
  legacy := by decide
  only := by
    intro _ candidate hmem hlegacy
    rcases mem_pair.mp hmem with rfl | rfl
    · decide
    · exact absurd hlegacy (by decide)
  unlisted := by
    intro _ candidate hmem
    rcases mem_pair.mp hmem with rfl | rfl
    · decide
    · decide
  kept := ⟨rfl, Or.inl rfl, Or.inl rfl⟩

set_option maxRecDepth 10000 in
/-- A directory that has not been moved before arrives with the second call when the first one is cut off. -/
theorem storage_migration_cut :
    Together configData (afterAttempts sideBySide moveRequest [cutAttempt] ⟨some neverMoved, none⟩) ∧
      (afterAttempts sideBySide moveRequest [cutAttempt] ⟨some neverMoved, none⟩).source.isSome = false ∧
      Arrived sideBySide configData (fullAttempt.run sideBySide moveRequest
        (afterAttempts sideBySide moveRequest [cutAttempt] ⟨some neverMoved, none⟩)).1 := by
  have hmoves := storage_migration neverMoved_movable
  refine ⟨hmoves.1 [cutAttempt], by decide +kernel, ?_⟩
  refine (hmoves.2.1 [cutAttempt] fullAttempt ⟨?_, ?_⟩).2
  · exact fun fault hfault => eq_of_mem_replicate hfault
  · decide +kernel

end Renamed

end MochiPort
