import MochiPort.StorageMigration

/-! What the parts of a migration find out, with and without faults. -/

namespace MochiPort

open CrashPrograms List StorageTree

def CalmIf {Path : Type} (calm : Prop) (_ : StorageOp Path) (fault : StorageFault) (_ : StorageTree) : Prop :=
  calm → fault = .goesThrough

section Rules

variable {Path : Type} {around : StorageSurroundings Path} {calm : Prop} {α β : Type}
  {inv : StorageTree → Prop} {tree : StorageTree}

theorem ask_safe {op : StorageOp Path} {ends : StorageTree → Except (StorageError Path) op.Answer → Prop}
    (hinv : inv tree) (hgoes : inv (doStorageOp around op tree).2 ∧
      ends (doStorageOp around op tree).2 (.ok (doStorageOp around op tree).1))
    (hfails : ¬calm → ends tree (.ok op.refusal)) :
    Program.Safe (storageMachine around) (CalmIf calm) inv ends tree (Program.ask op) := by
  intro fault hallowed
  cases fault with
  | goesThrough => exact hgoes
  | fails => exact ⟨hinv, hfails fun hcalm => absurd (hallowed hcalm) StorageFault.noConfusion⟩

/-- What a program that only looks finds out; in a calm call it gets an answer. -/
def Finds (around : StorageSurroundings Path) (calm : Prop) (inv : StorageTree → Prop) (tree : StorageTree)
    (p : StorageProgram Path α) (found : α → Prop) : Prop :=
  Program.Safe (storageMachine around) (CalmIf calm) inv
    (fun tree' outcome => tree' = tree ∧
      match outcome with
      | .ok value => found value
      | .error _ => ¬calm) tree p

variable {p : StorageProgram Path α}

theorem Finds.mono {found found' : α → Prop} (h : Finds around calm inv tree p found)
    (himp : ∀ value, found value → found' value) : Finds around calm inv tree p found' := by
  refine Program.Safe.mono (fun tree' outcome => ?_) h
  rintro ⟨htree, hfound⟩
  refine ⟨htree, ?_⟩
  cases outcome with
  | ok value => exact himp value hfound
  | error error => exact hfound

variable {found : α → Prop}

theorem Finds.bind {f : α → StorageProgram Path β} {found' : β → Prop} (h : Finds around calm inv tree p found)
    (hnext : ∀ value, found value → Finds around calm inv tree (f value) found') :
    Finds around calm inv tree (p >>= f) found' := by
  refine Program.Safe.bind (Program.Safe.mono (fun tree' outcome => ?_) h)
  rintro ⟨rfl, hfound⟩
  cases outcome with
  | ok value => exact hnext value hfound
  | error error => exact ⟨rfl, hfound⟩

theorem Finds.pure {value : α} (h : found value) : Finds around calm inv tree (Pure.pure value) found := ⟨rfl, h⟩

theorem Finds.andThen {f : α → StorageProgram Path β} {ends : StorageTree → Except (StorageError Path) β → Prop}
    (h : Finds around calm inv tree p found)
    (hnext : ∀ value, found value → Program.Safe (storageMachine around) (CalmIf calm) inv ends tree (f value))
    (herror : ¬calm → ∀ error, ends tree (.error error)) :
    Program.Safe (storageMachine around) (CalmIf calm) inv ends tree (p >>= f) := by
  refine Program.Safe.bind (Program.Safe.mono (fun tree' outcome => ?_) h)
  rintro ⟨rfl, hfound⟩
  cases outcome with
  | ok value => exact hnext value hfound
  | error error => exact herror hfound error

section

variable (hinv : inv tree)
include hinv

theorem ask_finds {op : StorageOp Path} (hlooks : (doStorageOp around op tree).2 = tree)
    {found : op.Answer → Prop} (hgoes : found (doStorageOp around op tree).1) (hfails : ¬calm → found op.refusal) :
    Finds around calm inv tree (Program.ask op) found := by
  refine ask_safe hinv ?_ fun hcalm => ⟨rfl, hfails hcalm⟩
  rw [hlooks]
  exact ⟨hinv, rfl, hgoes⟩

section

variable (path : Path)

theorem pathExists_finds :
    Finds around calm inv tree (pathExists path) fun answer =>
      (answer = true → (tree.canonical around path).isSome) ∧ (calm → answer = (tree.canonical around path).isSome) := by
  refine ask_finds hinv rfl ⟨fun h => h, fun _ => rfl⟩ fun hcalm => ⟨fun h => ?_, fun h => absurd h hcalm⟩
  cases h

theorem isLegacy_finds :
    Finds around calm inv tree (isLegacyStorageDirectory path) fun answer =>
      (answer = true → tree.legacyAt around path = true) ∧ (calm → answer = tree.legacyAt around path) := by
  refine ask_finds hinv rfl ⟨fun h => h, fun _ => rfl⟩ fun hcalm => ⟨fun h => ?_, fun h => absurd h hcalm⟩
  cases h

omit hinv in
theorem orFail_finds {attempt : StorageProgram Path Bool} {error : StorageError Path}
    (hattempt : Finds around calm inv tree attempt fun answer => calm → answer = true) :
    Finds around calm inv tree (orFail attempt error) fun _ => True := by
  refine Finds.bind hattempt fun answer hanswer => ?_
  cases answer with
  | true => exact Finds.pure trivial
  | false => exact ⟨rfl, fun hcalm => absurd (hanswer hcalm) Bool.false_ne_true⟩

theorem syncDirectory_finds : Finds around calm inv tree (syncDirectory path) fun answer => calm → answer = true :=
  ask_finds hinv rfl (fun _ => rfl) fun hcalm h => absurd h hcalm

theorem createParent_finds : Finds around calm inv tree (createParent path) fun answer => calm → answer = true :=
  ask_finds hinv rfl (fun _ => rfl) fun hcalm h => absurd h hcalm

theorem syncParent_finds : Finds around calm inv tree (syncParent path) fun answer => calm → answer = true :=
  ask_finds hinv rfl (fun _ => rfl) fun hcalm h => absurd h hcalm

theorem acquireLock_finds {destination : Path} (hparent : around.hasParent destination = true) :
    Finds around calm inv tree (acquireLock around destination) fun _ => True := by
  rw [acquireLock, if_pos hparent]
  refine Finds.bind (orFail_finds (ask_finds hinv rfl (fun _ => rfl) fun hcalm h => absurd h hcalm)) fun _ _ => ?_
  refine Finds.bind (orFail_finds (ask_finds hinv rfl (fun _ => rfl) fun hcalm h => absurd h hcalm)) fun _ _ => ?_
  exact orFail_finds (ask_finds hinv rfl (fun _ => rfl) fun hcalm h => absurd h hcalm)

theorem requireNoDaemon_finds : Finds around calm inv tree (requireNoDaemon path) fun _ => True := by
  have hactive : Finds around calm inv tree (daemonIsActive path) fun answer => answer = some false ∨ ¬calm ∧ answer = none :=
    ask_finds hinv rfl (Or.inl rfl) fun hcalm => Or.inr ⟨hcalm, rfl⟩
  refine Finds.bind hactive fun answer hanswer => ?_
  rcases hanswer with rfl | ⟨hcalm, rfl⟩
  · exact Finds.pure trivial
  · exact ⟨rfl, hcalm⟩

end

end

variable {directory : StorageDirectory} {path : Path}

theorem isFile_finds (hinv : inv tree) {file : ManifestFile} (hstorage : tree.storageAt around path = some directory)
    (hfile : directory.manifest file ≠ some .directory) :
    Finds around calm inv tree (isFile path file) fun answer =>
      (answer = true → directory.manifest file ≠ none) ∧ (calm → answer = false → directory.manifest file = none) := by
  have hanswer : (doStorageOp around (.isFile path file) tree).1 =
      (directory.manifest file).any fun entry => decide (entry ≠ .directory) := by
    change (tree.storageAt around path).any _ = _
    rw [hstorage]
    rfl
  refine ask_finds hinv rfl ⟨fun htrue => ?_, fun _ hfalse => ?_⟩
    fun hcalm => ⟨fun htrue => absurd htrue Bool.false_ne_true, fun h => absurd h hcalm⟩
  · rw [hanswer] at htrue
    intro hnone
    rw [hnone] at htrue
    cases htrue
  · rw [hanswer] at hfalse
    cases hentry : directory.manifest file with
    | none => rfl
    | some entry =>
      rw [hentry, Option.any_some] at hfalse
      exact absurd (hentry.trans (congrArg some (not_not.mp (of_decide_eq_false hfalse)))) hfile

theorem readManifest_finds (hinv : inv tree) {file : ManifestFile}
    (hstorage : tree.storageAt around path = some directory) {bytes : List UInt8} {manifest : StorageManifest}
    (hentry : directory.manifest file = some (.file bytes)) (hparse : around.parse bytes = some manifest) :
    Finds around calm inv tree (readManifest around path file) fun value => value = manifest := by
  have hread : Finds around calm inv tree (readFile path file) fun answer =>
      answer = some bytes ∨ ¬calm ∧ answer = none := by
    refine ask_finds hinv rfl (Or.inl ?_) fun hcalm => Or.inr ⟨hcalm, rfl⟩
    change ((tree.storageAt around path).bind fun directory => (directory.manifest file).bind StorageEntry.bytes) = _
    rw [hstorage, Option.bind_some, hentry]
    rfl
  refine Finds.bind hread fun answer hanswer => ?_
  rcases hanswer with rfl | ⟨hcalm, rfl⟩
  · dsimp only
    rw [hparse]
    exact Finds.pure rfl
  · exact ⟨rfl, hcalm⟩

theorem filterLegacy_finds (hinv : inv tree) (candidates : List Path) :
    Finds around calm inv tree (filterLegacy candidates) fun out =>
      (∀ path ∈ out, path ∈ candidates ∧ tree.legacyAt around path = true) ∧
        (calm → out = candidates.filter (tree.legacyAt around)) := by
  induction candidates with
  | nil => exact Finds.pure ⟨fun path hpath => absurd hpath not_mem_nil, fun _ => rfl⟩
  | cons candidate candidates ih =>
    refine Finds.bind (isLegacy_finds hinv candidate) fun legacy hlegacy => ?_
    cases legacy with
    | true =>
      refine Finds.bind ih fun rest hrest => Finds.pure ⟨fun path hpath => ?_, fun hcalm => ?_⟩
      · rcases mem_cons.mp hpath with rfl | hpath
        · exact ⟨mem_cons_self, hlegacy.1 rfl⟩
        · exact ⟨mem_cons_of_mem _ (hrest.1 path hpath).1, (hrest.1 path hpath).2⟩
      · rw [filter_cons, if_pos (hlegacy.1 rfl), hrest.2 hcalm]
    | false =>
      refine ih.mono fun out hout => ⟨fun path hpath => ?_, fun hcalm => ?_⟩
      · exact ⟨mem_cons_of_mem _ (hout.1 path hpath).1, (hout.1 path hpath).2⟩
      · have hnot : ¬tree.legacyAt around candidate = true := by
          rw [← hlegacy.2 hcalm]
          exact Bool.false_ne_true
        rw [filter_cons, if_neg hnot, hout.2 hcalm]

/-- The directory that a path names, wherever it is in the tree. -/
structure HoldsStorage (around : StorageSurroundings Path) (path : Path) (wrap : StorageDirectory → StorageTree) : Prop where
  storageAt : ∀ directory, (wrap directory).storageAt around path = some directory
  setStorage : ∀ directory changed, (wrap directory).setStorage around path changed = wrap changed

theorem holds_source (h : around.place path = .source []) :
    HoldsStorage around path fun directory => ⟨some directory, none⟩ := by
  constructor
  · intro directory
    rw [storageAt, h]
  · intro directory changed
    rw [setStorage, h]

theorem holds_destination (h : around.place path = .destination []) :
    HoldsStorage around path fun directory => ⟨none, some directory⟩ := by
  constructor
  · intro directory
    rw [storageAt, h]
  · intro directory changed
    rw [setStorage, h]

variable {wrap : StorageDirectory → StorageTree}

theorem HoldsStorage.change (h : HoldsStorage around path wrap)
    {directory changed : StorageDirectory} {change : StorageDirectory → Option StorageDirectory}
    (hchange : change directory = some changed) :
    (wrap directory).change around path change = (true, wrap changed) := by
  rw [StorageTree.change, h.storageAt, Option.bind_some, hchange]
  dsimp only
  rw [h.setStorage]

theorem HoldsStorage.change_none (h : HoldsStorage around path wrap)
    {change : StorageDirectory → Option StorageDirectory} (hchange : change directory = none) :
    (wrap directory).change around path change = (false, wrap directory) := by
  rw [StorageTree.change, h.storageAt, Option.bind_some, hchange]

/-- Nothing but temporary files is different. -/
def SameFiles (directory other : StorageDirectory) : Prop :=
  other.data = directory.data ∧ other.manifest = directory.manifest

section Changes

variable {path : Path} {wrap : StorageDirectory → StorageTree} {directory : StorageDirectory}

variable {ends : StorageTree → Except (StorageError Path) Bool → Prop}

theorem createTemporary_safe (hwrap : HoldsStorage around path wrap) (hinv : inv (wrap directory))
    (hcreated : ∀ other, SameFiles directory other → inv (wrap other) ∧ ends (wrap other) (.ok true))
    (hfails : ¬calm → ends (wrap directory) (.ok false)) :
    Program.Safe (storageMachine around) (CalmIf calm) inv ends (wrap directory) (createTemporary path) := by
  refine ask_safe hinv ?_ hfails
  change inv ((wrap directory).change around path _).2 ∧
    ends ((wrap directory).change around path _).2 (.ok ((wrap directory).change around path _).1)
  have hchange : (wrap directory).change around path
      (fun directory => some { directory with temporaries := directory.temporaries + 1 }) =
      (true, wrap { directory with temporaries := directory.temporaries + 1 }) := hwrap.change rfl
  rw [hchange]
  exact hcreated _ ⟨rfl, rfl⟩

theorem dropTemporary_safe (hwrap : HoldsStorage around path wrap)
    (hsame : ∀ other, SameFiles directory other → inv (wrap other) ∧ ∀ answer, ends (wrap other) (.ok answer)) :
    Program.Safe (storageMachine around) (CalmIf calm) inv ends (wrap directory) (dropTemporary path) := by
  refine ask_safe (hsame directory ⟨rfl, rfl⟩).1 ?_ fun _ => (hsame directory ⟨rfl, rfl⟩).2 false
  change inv ((wrap directory).change around path _).2 ∧
    ends ((wrap directory).change around path _).2 (.ok ((wrap directory).change around path _).1)
  have hchange : (wrap directory).change around path
      (fun directory => some { directory with temporaries := directory.temporaries - 1 }) =
      (true, wrap { directory with temporaries := directory.temporaries - 1 }) := hwrap.change rfl
  rw [hchange]
  have hdropped := hsame { directory with temporaries := directory.temporaries - 1 } ⟨rfl, rfl⟩
  exact ⟨hdropped.1, hdropped.2 true⟩

variable {file : ManifestFile}

theorem persistManifest_safe (hwrap : HoldsStorage around path wrap) {bytes : List UInt8}
    (hfile : directory.manifest file ≠ some .directory) (hinv : inv (wrap directory))
    (hpublished : ∀ other, SameFiles (directory.setManifest file (some (.file bytes))) other →
      inv (wrap other) ∧ ends (wrap other) (.ok true)) (hfails : ¬calm → ends (wrap directory) (.ok false)) :
    Program.Safe (storageMachine around) (CalmIf calm) inv ends (wrap directory) (persistManifest path file bytes) := by
  refine ask_safe hinv ?_ hfails
  change inv ((wrap directory).change around path _).2 ∧
    ends ((wrap directory).change around path _).2 (.ok ((wrap directory).change around path _).1)
  rw [hwrap.change (if_neg hfile)]
  exact hpublished _ ⟨rfl, rfl⟩

theorem removeManifest_safe (hwrap : HoldsStorage around path wrap)
    (hkept : inv (wrap directory) ∧ ∀ answer, ends (wrap directory) (.ok answer))
    (hremoved : inv (wrap (directory.setManifest file none)) ∧
      ∀ answer, ends (wrap (directory.setManifest file none)) (.ok answer)) :
    Program.Safe (storageMachine around) (CalmIf calm) inv ends (wrap directory) (removeManifest path file) := by
  refine ask_safe hkept.1 ?_ fun _ => hkept.2 false
  change inv ((wrap directory).change around path _).2 ∧
    ends ((wrap directory).change around path _).2 (.ok ((wrap directory).change around path _).1)
  cases hentry : directory.manifest file with
  | none =>
    rw [hwrap.change_none (by rw [hentry]; rfl)]
    exact ⟨hkept.1, hkept.2 false⟩
  | some entry =>
    by_cases hdirectory : entry = .directory
    · rw [hwrap.change_none (by rw [hentry]; exact if_pos hdirectory)]
      exact ⟨hkept.1, hkept.2 false⟩
    · rw [hwrap.change (by rw [hentry]; exact if_neg hdirectory)]
      exact ⟨hremoved.1, hremoved.2 true⟩

theorem renameDirectory_safe {source destination : Path} (hsource : around.place source = .source [])
    (hdestination : around.place destination = .destination []) (hinv : inv ⟨some directory, none⟩)
    (hmoved : inv ⟨none, some directory⟩ ∧ ends ⟨none, some directory⟩ (.ok true))
    (hfails : ¬calm → ends ⟨some directory, none⟩ (.ok false)) :
    Program.Safe (storageMachine around) (CalmIf calm) inv ends ⟨some directory, none⟩
      (renameDirectory source destination) := by
  refine ask_safe hinv ?_ hfails
  have hmove : move around ⟨some directory, none⟩ source destination = (true, ⟨none, some directory⟩) := by
    rw [move, hsource, hdestination]
  change inv (move around ⟨some directory, none⟩ source destination).2 ∧
    ends (move around ⟨some directory, none⟩ source destination).2
      (.ok (move around ⟨some directory, none⟩ source destination).1)
  rw [hmove]
  exact hmoved

theorem orFail_safe {attempt : StorageProgram Path Bool} {error : StorageError Path}
    {ends : StorageTree → Except (StorageError Path) Unit → Prop}
    (hattempt : Program.Safe (storageMachine around) (CalmIf calm) inv
      (fun tree outcome =>
        match outcome with
        | .ok went => if went then ends tree (.ok ()) else ends tree (.error error)
        | .error other => ends tree (.error other)) tree attempt) :
    Program.Safe (storageMachine around) (CalmIf calm) inv ends tree (orFail attempt error) := by
  refine Program.Safe.bind (hattempt.mono fun tree outcome h => ?_)
  cases outcome with
  | error other => exact h
  | ok went =>
    cases went with
    | true | false => exact h

theorem writeJsonAtomically_safe (hwrap : HoldsStorage around path wrap) {manifest : StorageManifest}
    (hfile : directory.manifest file ≠ some .directory) {ends : StorageTree → Except (StorageError Path) Unit → Prop}
    (hsame : ∀ other, SameFiles directory other →
      inv (wrap other) ∧ (¬calm → ∀ error, ends (wrap other) (.error error)))
    (hpublished : ∀ other, SameFiles (directory.setManifest file (some (.file (around.print manifest ++ [10])))) other →
      inv (wrap other) ∧ ends (wrap other) (.ok ()) ∧ (¬calm → ∀ error, ends (wrap other) (.error error))) :
    Program.Safe (storageMachine around) (CalmIf calm) inv ends (wrap directory)
      (writeJsonAtomically around path file manifest) := by
  have hdirectory := hsame directory ⟨rfl, rfl⟩
  have hcreate : Finds around calm inv (wrap directory) (createDirAll path) fun answer => calm → answer = true :=
    ask_finds hdirectory.1 rfl (fun _ => rfl) fun hcalm h => absurd h hcalm
  refine Finds.andThen (orFail_finds hcreate) (fun _ _ => ?_) hdirectory.2
  refine Program.Safe.bind (orFail_safe (createTemporary_safe hwrap hdirectory.1 (fun prepared hprepared => ?_)
    fun hcalm => hdirectory.2 hcalm _))
  have hkept := hsame prepared hprepared
  have hstill : ∀ other, SameFiles prepared other → SameFiles directory other := fun other hother =>
    ⟨hother.1.trans hprepared.1, hother.2.trans hprepared.2⟩
  refine ⟨hkept.1, ?_⟩
  have hwrite : Finds around calm inv (wrap prepared) (writeTemporary path) fun answer => calm → answer = true :=
    ask_finds hkept.1 rfl (fun _ => rfl) fun hcalm h => absurd h hcalm
  have hgivesUp : ¬calm → ∀ error, Program.Safe (storageMachine around) (CalmIf calm) inv ends (wrap prepared)
      (do
        let _ ← dropTemporary path
        .fail error) := by
    intro hcalm error
    refine Program.Safe.bind (dropTemporary_safe hwrap fun other hother => ?_)
    have hdropped := hsame other (hstill other hother)
    exact ⟨hdropped.1, fun _ => hdropped.2 hcalm error⟩
  refine Finds.andThen hwrite (fun written hwritten => ?_) hkept.2
  cases written with
  | false => exact hgivesUp (fun hcalm => absurd (hwritten hcalm) Bool.false_ne_true) _
  | true =>
    have hfile' : prepared.manifest file ≠ some .directory := by
      rw [hprepared.2]
      exact hfile
    refine Program.Safe.bind (persistManifest_safe hwrap hfile' hkept.1 (fun other hother => ?_)
      fun hcalm => hgivesUp hcalm _)
    have hnew := hpublished other (by
      refine ⟨hother.1.trans hprepared.1, hother.2.trans ?_⟩
      rw [StorageDirectory.setManifest, StorageDirectory.setManifest, hprepared.2])
    refine ⟨hnew.1, ?_⟩
    refine Program.Safe.mono (fun tree outcome => ?_) (orFail_finds (syncDirectory_finds hnew.1 path))
    rintro ⟨rfl, hfound⟩
    cases outcome with
    | ok value => exact hnew.2.1
    | error error => exact hnew.2.2 hfound error

end Changes

end Rules

section Looks

variable {Path : Type} [DecidableEq Path] {around : StorageSurroundings Path} {calm : Prop} {inv : StorageTree → Prop}
  {tree : StorageTree}

/-- `same_path`, as the tree is now. -/
def StorageTree.same (tree : StorageTree) (around : StorageSurroundings Path) (left right : Path) : Bool :=
  match tree.canonical around left, tree.canonical around right with
  | some leftPlace, some rightPlace => leftPlace = rightPlace
  | none, none => left = right
  | _, _ => false

theorem samePath_finds (hinv : inv tree) (left right : Path) :
    Finds around calm inv tree (samePath left right) fun answer => calm → answer = tree.same around left right := by
  have hplace : ∀ path, Finds around calm inv tree (canonicalize path)
      fun place => calm → place = tree.canonical around path := fun path =>
    ask_finds hinv rfl (fun _ => rfl) fun hcalm h => absurd h hcalm
  refine Finds.bind (hplace left) fun leftPlace hleft => Finds.bind (hplace right) fun rightPlace hright => ?_
  have hanswer : ∀ answer, (∀ (_ : calm), answer = tree.same around left right) →
      Finds around calm inv tree (pure answer) fun answer => calm → answer = tree.same around left right :=
    fun answer h => Finds.pure h
  cases leftPlace with
  | none | some leftPlace =>
    cases rightPlace with
    | none | some rightPlace => exact hanswer _ fun hcalm => by rw [same, ← hleft hcalm, ← hright hcalm]

theorem anySamePath_finds (hinv : inv tree) (paths : List Path) (path : Path) :
    Finds around calm inv tree (anySamePath paths path) fun answer =>
      calm → answer = paths.any fun seen => tree.same around seen path := by
  induction paths with
  | nil => exact Finds.pure fun _ => rfl
  | cons seen paths ih =>
    refine Finds.bind (samePath_finds hinv seen path) fun same hsame => ?_
    cases same with
    | true => exact Finds.pure fun hcalm => by rw [any_cons, ← hsame hcalm, Bool.true_or]
    | false => exact ih.mono fun answer hanswer hcalm => by rw [any_cons, ← hsame hcalm, Bool.false_or, hanswer hcalm]

/-- `deduplicate_paths`, as the tree is now. -/
def StorageTree.deduplicate (tree : StorageTree) (around : StorageSurroundings Path) (result : List Path) :
    List Path → List Path
  | [] => result
  | path :: paths =>
    if result.any fun seen => tree.same around seen path then tree.deduplicate around result paths
    else tree.deduplicate around (result ++ [path]) paths

theorem deduplicatePaths_finds (hinv : inv tree) (result paths : List Path) :
    Finds around calm inv tree (deduplicatePaths result paths) fun out =>
      (∀ path ∈ out, path ∈ result ∨ path ∈ paths) ∧ (calm → out = tree.deduplicate around result paths) := by
  induction paths generalizing result with
  | nil => exact Finds.pure ⟨fun path hpath => Or.inl hpath, fun _ => rfl⟩
  | cons path paths ih =>
    refine Finds.bind (anySamePath_finds hinv result path) fun seen hseen => ?_
    cases seen with
    | true =>
      refine (ih result).mono fun out hout => ⟨fun p hp => ?_, fun hcalm => ?_⟩
      · exact (hout.1 p hp).imp_right (mem_cons_of_mem path)
      · rw [deduplicate, if_pos (hseen hcalm).symm, hout.2 hcalm]
    | false =>
      refine (ih (result ++ [path])).mono fun out hout => ⟨fun p hp => ?_, fun hcalm => ?_⟩
      · rcases hout.1 p hp with hold | hlater
        · rcases mem_append.mp hold with hold | hnew
          · exact Or.inl hold
          · exact Or.inr (mem_cons.mpr (Or.inl (mem_singleton.mp hnew)))
        · exact Or.inr (mem_cons_of_mem path hlater)
      · have hnot : ¬(result.any fun seen => tree.same around seen path) = true := by
          rw [← hseen hcalm]
          exact Bool.false_ne_true
        rw [deduplicate, if_neg hnot, hout.2 hcalm]

theorem anyOtherLegacy_finds (hinv : inv tree) (recorded : Path) (candidates : List Path)
    (hnone : ∀ candidate ∈ candidates, tree.legacyAt around candidate = false) :
    Finds around calm inv tree (anyOtherLegacy recorded candidates) fun answer => answer = false := by
  induction candidates with
  | nil => exact Finds.pure rfl
  | cons candidate candidates ih =>
    refine Finds.bind (isLegacy_finds hinv candidate) fun legacy hlegacy => ?_
    cases legacy with
    | true =>
      have hfound := hlegacy.1 rfl
      rw [hnone candidate mem_cons_self] at hfound
      cases hfound
    | false => exact ih fun other hother => hnone other (mem_cons_of_mem candidate hother)

theorem validateManifestDestination_finds (hinv : inv tree) {manifest : StorageManifest} {destination : Path}
    (hschema : manifest.schemaVersion = storageMigrationSchemaVersion) (hid : RustText.trim manifest.migrationId ≠ "")
    (hsame : tree.same around (around.absolutize (around.ofText manifest.destinationDirectory)) destination = true) :
    Finds around calm inv tree (validateManifestDestination around manifest destination) fun _ => True := by
  have hnot : ¬(manifest.schemaVersion ≠ storageMigrationSchemaVersion ∨ RustText.trim manifest.migrationId = "") := by
    rintro (hother | hblank)
    · exact hother hschema
    · exact hid hblank
  rw [validateManifestDestination, if_neg hnot]
  exact orFail_finds ((samePath_finds hinv _ _).mono fun answer hanswer hcalm => (hanswer hcalm).trans hsame)

end Looks

end MochiPort
