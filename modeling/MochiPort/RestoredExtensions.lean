import MochiPort.ExtensionRules

/-! What comes back when a patch is taken back. -/

namespace MochiPort

open CrashPrograms Install Option PatchEvent PatchFile Program

section Consistency

variable (ext : PatchExternals)

/-- The extension starts its server with remote control, as far as the patch can tell. -/
def carriesRemoteControl (text : List Char) : Prop := patchRemoteControlSource ext text = some text

/-- Nothing that `restore` goes by speaks for a patch in `extension.js`. -/
def Quiet (install : Install) : Prop :=
  ∀ text, install.readText .extensionJs = some text →
    (install.disk .backup ≠ none ∨ install.disk .legacyBackup ≠ none → ¬ carriesRemoteControl ext text) ∧
      ∀ file recorded, file = .state ∨ file = .legacyState → install.recorded ext file = some recorded →
        recorded.patchedSha256 ≠ sha256Hex ext text

/-- The backup of a patched file is what the file was; one that an older version patched may still have its older
backup only. -/
structure Consistent (install : Install) : Prop where
  kept : ∀ before, install.patch = some before →
    install.disk .backup = some before ∨
      install.disk .backup = none ∧ install.disk .legacyBackup = some before ∧
        (install.disk .extensionJs = some before ∨
          ∃ text, install.readText .extensionJs = some text ∧ carriesRemoteControl ext text)
  quiet : install.patch = none → Quiet ext install

/-- An installation that nothing was done to, or one that an older version patched. -/
inductive Start : Install → Prop
  | untouched (install : Install) (hpatch : install.patch = none)
      (hfiles : ∀ file, file ≠ .extensionJs → install.disk file = none) : Start install
  | legacy (install : Install) (before : ByteArray) (text : List Char) (hpatch : install.patch = some before)
      (hbackup : install.disk .backup = none) (hstate : install.disk .state = none)
      (hlegacy : install.disk .legacyBackup = some before) (htext : install.readText .extensionJs = some text)
      (hcarries : carriesRemoteControl ext text) : Start install

theorem Start.consistent {ext : PatchExternals} {install : Install} (h : Start ext install) :
    Consistent ext install := by
  cases h with
  | untouched hpatch hfiles =>
    refine ⟨fun before hbefore => absurd (hpatch.symm.trans hbefore) nofun, fun _ text htext => ⟨?_, ?_⟩⟩
    · rintro (hbackup | hlegacy)
      · exact absurd (hfiles .backup nofun) hbackup
      · exact absurd (hfiles .legacyBackup nofun) hlegacy
    · intro file recorded hfile hrecorded
      have hnone : install.disk file = none := by
        rcases hfile with rfl | rfl
        · exact hfiles .state nofun
        · exact hfiles .legacyState nofun
      rw [Install.recorded, Install.readText, hnone] at hrecorded
      cases hrecorded
  | legacy before text hpatch hbackup hstate hlegacy htext hcarries =>
    refine ⟨fun before' hbefore => Or.inr ⟨hbackup, ?_, Or.inr ⟨text, htext, hcarries⟩⟩, fun hnone => ?_⟩
    · rw [hlegacy, ← hpatch, hbefore]
    · exact absurd (hpatch.symm.trans hnone) nofun

end Consistency

section Restore

variable {ext : PatchExternals} {install : Install}

def Restored (outcome : Except PatchError PatchReport) : Prop :=
  ∃ backupPath, outcome = .ok ⟨.restored, some backupPath⟩

/-- How a restore may end: it has put back what was there before the patch, or it has changed nothing. -/
def RestoreEnds (ext : PatchExternals) (start install : Install) (outcome : Except PatchError PatchReport) : Prop :=
  Consistent ext install ∧
    ((Restored outcome ∧ start.patch ≠ none ∧ install.disk .extensionJs = start.patch) ∨
      (¬Restored outcome ∧ install = start))

/-- The files that say what the patch was of are as at the start. -/
structure SameBackups (start install : Install) : Prop where
  patch : install.patch = start.patch
  backup : install.disk .backup = start.disk .backup
  legacyBackup : install.disk .legacyBackup = start.disk .legacyBackup

theorem SameBackups.consistent {start install : Install} (h : SameBackups start install)
    (hstart : Consistent ext start) (hsome : start.patch ≠ none)
    (hjs : install.disk .extensionJs = start.disk .extensionJs ∨ install.disk .extensionJs = start.patch) :
    Consistent ext install := by
  refine ⟨fun before hbefore => ?_, fun hnone => absurd (h.patch.symm.trans hnone) hsome⟩
  rw [h.patch] at hbefore
  rw [h.backup, h.legacyBackup]
  rcases hstart.kept before hbefore with hkept | ⟨hgone, hold, hfile⟩
  · exact Or.inl hkept
  · refine Or.inr ⟨hgone, hold, ?_⟩
    rcases hjs with hjs | hjs
    · rw [Install.readText, hjs]
      exact hfile
    · exact Or.inl (hjs.trans hbefore)

variable {file : PatchFile}

theorem SameBackups.setFile {start install : Install} (h : SameBackups start install) (hbackup : file ≠ .backup)
    (hlegacy : file ≠ .legacyBackup) (contents : Option ByteArray) :
    SameBackups start (install.setFile file contents) where
  patch := h.patch
  backup := (setFile_disk_of_ne hbackup.symm).trans h.backup
  legacyBackup := (setFile_disk_of_ne hlegacy.symm).trans h.legacyBackup

/-- The backup that `restore` takes. -/
def Taken (install : Install) (file : PatchFile) : Prop :=
  file = .backup ∧ install.disk .backup ≠ none ∨
    file = .legacyBackup ∧ install.disk .backup = none ∧ install.disk .legacyBackup ≠ none

variable {install : Install}

theorem Consistent.taken_eq (h : Consistent ext install) {before : ByteArray} (hbefore : install.patch = some before)
    (hfile : Taken install file) : install.disk file = some before := by
  rcases h.kept before hbefore with hkept | ⟨hgone, hold, _⟩
  · rcases hfile with ⟨rfl, _⟩ | ⟨_, hnone, _⟩
    · exact hkept
    · rw [hkept] at hnone
      cases hnone
  · rcases hfile with ⟨_, hsome⟩ | ⟨rfl, _, _⟩
    · exact absurd hgone hsome
    · exact hold

theorem removeState_safe {start install : Install} (hstart : Consistent ext start) (hsome : start.patch ≠ none)
    (h : SameBackups start install) (hjs : install.disk .extensionJs = start.patch)
    (hfile : file = .state ∨ file = .legacyState) {ends : Install → Except PatchError Bool → Prop}
    (hends : ∀ install removed, SameBackups start install → install.disk .extensionJs = start.patch →
      ends install (.ok removed)) :
    Program.Safe fileMachine Unbroken (Consistent ext) ends install (removeFile file) := by
  have hremoved : SameBackups start (install.setFile file none) ∧
      (install.setFile file none).disk .extensionJs = start.patch := by
    rcases hfile with hfile | hfile
    · rw [hfile]
      exact ⟨h.setFile noConfusion noConfusion none,
        (setFile_disk_of_ne noConfusion).trans hjs⟩
    · rw [hfile]
      exact ⟨h.setFile noConfusion noConfusion none,
        (setFile_disk_of_ne noConfusion).trans hjs⟩
  refine removeFile_safe ⟨?_, fun removed => hends _ removed hremoved.1 hremoved.2⟩ ⟨?_, hends install false h hjs⟩
  · exact hremoved.1.consistent hstart hsome (Or.inr hremoved.2)
  · exact h.consistent hstart hsome (Or.inr hjs)

theorem copyBack_safe (h : Consistent ext install) (hpatched : install.patch ≠ none) (hfile : Taken install file) :
    Program.Safe fileMachine Unbroken (Consistent ext) (RestoreEnds ext install) install (copyBack file) := by
  obtain ⟨before, hbefore⟩ := ne_none_iff_exists'.mp hpatched
  have hsame : SameBackups install install := ⟨rfl, rfl, rfl⟩
  have hunchanged : RestoreEnds ext install install (.error (.restore file)) := by
    refine ⟨h, Or.inr ⟨?_, rfl⟩⟩
    rintro ⟨path, hpath⟩
    cases hpath
  refine Program.Safe.bind (copyFile_safe h (fun contents hcontents => ?_) hunchanged)
  have hback : some contents = install.patch := by
    rw [hbefore, ← hcontents]
    exact h.taken_eq hbefore hfile
  have hcopied := hsame.setFile (noConfusion : PatchFile.extensionJs ≠ .backup) noConfusion (some contents)
  have hjs : (install.setFile .extensionJs (some contents)).disk .extensionJs = install.patch :=
    setFile_disk.trans hback
  refine ⟨hcopied.consistent h hpatched (Or.inr hjs), ?_⟩
  refine Program.Safe.bind (removeState_safe h hpatched hcopied hjs (Or.inl rfl) fun install' _ hsame' hjs' => ?_)
  refine Program.Safe.bind (removeState_safe h hpatched hsame' hjs' (Or.inr rfl) fun last _ hlast hjs'' => ?_)
  exact ⟨hlast.consistent h hpatched (Or.inr hjs''), Or.inl ⟨⟨file, rfl⟩, hpatched, hjs''⟩⟩

theorem not_restored_error {error : PatchError} : ¬Restored (.error error) := by
  rintro ⟨path, hpath⟩
  cases hpath

theorem not_restored_ok {action : PatchAction} {backupPath : Option PatchFile} (hne : action ≠ .restored) :
    ¬Restored (.ok ⟨action, backupPath⟩) := by
  rintro ⟨path, hpath⟩
  cases hpath
  exact hne rfl

/-- The state that `restore` goes by is one of the two files. -/
def Read (ext : PatchExternals) (install : Install) (state : Option PatchState) : Prop :=
  ∀ recorded, state = some recorded →
    ∃ file, (file = .state ∨ file = .legacyState) ∧ install.recorded ext file = some recorded

theorem restoreFrom_safe (h : Consistent ext install) {state : Option PatchState} (hstate : Read ext install state)
    (hfile : Taken install file) :
    Program.Safe fileMachine Unbroken (Consistent ext) (RestoreEnds ext install) install
      (restoreFrom ext state file) := by
  refine Program.Safe.bind (readToString_safe h (fun text htext => ?_) ⟨h, Or.inr ⟨not_restored_error, rfl⟩⟩)
  dsimp only
  by_cases hmodified : (state.any fun state => state.patchedSha256 != sha256Hex ext text) = true
  · rw [if_pos hmodified]
    exact ⟨h, Or.inr ⟨not_restored_ok PatchAction.noConfusion, rfl⟩⟩
  · rw [if_neg hmodified]
    by_cases hunmanaged : state.isNone = true ∧ ¬patchRemoteControlSource ext text = some text
    · rw [if_pos hunmanaged]
      exact ⟨h, Or.inr ⟨not_restored_ok PatchAction.noConfusion, rfl⟩⟩
    · rw [if_neg hunmanaged]
      -- only a patched file gets here: nothing speaks for a patch in any other
      refine copyBack_safe h (fun hnone => ?_) hfile
      obtain ⟨hcarries, hrecorded⟩ := h.quiet hnone text htext
      cases state with
      | none =>
        have hthere : install.disk .backup ≠ none ∨ install.disk .legacyBackup ≠ none := by
          rcases hfile with ⟨_, hsome⟩ | ⟨_, _, hsome⟩
          · exact Or.inl hsome
          · exact Or.inr hsome
        exact hunmanaged ⟨rfl, hcarries hthere⟩
      | some recorded =>
        obtain ⟨stateFile, hstateFile, hread⟩ := hstate recorded rfl
        exact hmodified (bne_iff_ne.mpr (hrecorded stateFile recorded hstateFile hread))

theorem restore_safe (h : Consistent ext install) :
    Program.Safe fileMachine Unbroken (Consistent ext) (RestoreEnds ext install) install
      (restoreLegacyPatchFallback ext) := by
  have hbackup : ∀ state next, Read ext install state → next none = pure ⟨.noBackup, some .backup⟩ →
      (∀ backupPath, next (some backupPath) = restoreFrom ext state backupPath) →
      Program.Safe fileMachine Unbroken (Consistent ext) (RestoreEnds ext install) install
        (managedBackupPath >>= next) := by
    intro state next hstate hnone hsome
    refine Program.Safe.bind (managedBackupPath_safe h (fun hfound => ?_) (fun hgone hfound => ?_) ?_)
    · dsimp only
      rw [hsome]
      exact restoreFrom_safe h hstate (Or.inl ⟨rfl, hfound⟩)
    · dsimp only
      rw [hsome]
      exact restoreFrom_safe h hstate (Or.inr ⟨rfl, hgone, hfound⟩)
    · dsimp only
      rw [hnone]
      exact ⟨h, Or.inr ⟨not_restored_ok PatchAction.noConfusion, rfl⟩⟩
  refine Program.Safe.bind (managedState_safe h (fun file recorded hfile hrecorded => ?_) ?_)
  · refine hbackup (some recorded) _ ?_ rfl fun _ => rfl
    intro r hr
    cases hr
    exact ⟨file, hfile, hrecorded⟩
  · refine hbackup none _ ?_ rfl fun _ => rfl
    intro r hr
    cases hr

end Restore

section Enable

variable {ext : PatchExternals} {install : Install}

/-- `enable` patches nothing over a backup of other contents. -/
def BackupFits (ext : PatchExternals) (install : Install) : Prop :=
  ∀ source patched, install.readText .extensionJs = some source → patchRemoteControlSource ext source = some patched →
    patched ≠ source → install.disk .backup = none ∨ install.disk .backup = install.disk .extensionJs

variable {inv : Install → Prop}

variable {patched : List Char}

theorem writePatchState_safe {ends : Install → Except PatchError Unit → Prop} {backupPath : PatchFile}
    {original : List Char} {now : Nat}
    (hinv : ∀ fault state text, ext.printState state = some text → state.patchedSha256 = sha256Hex ext patched →
      inv (install.setFile .state (writtenContents fault (install.disk .state) (encodeText text))))
    (hwritten : ∀ state text, ext.printState state = some text → state.patchedSha256 = sha256Hex ext patched →
      ends (install.setFile .state (some (encodeText text))) (.ok ()))
    (hfails : ∀ fault state text, ext.printState state = some text → state.patchedSha256 = sha256Hex ext patched →
      ends (install.setFile .state (writtenContents fault (install.disk .state) (encodeText text)))
        (.error (.write .state))) (hunprinted : ends install (.error .stateText)) :
    Program.Safe fileMachine Unbroken inv ends install
      (writePatchState ext backupPath original patched .state now) := by
  unfold writePatchState
  dsimp only
  cases htext : ext.printState ⟨ext.path .extensionJs, ext.path backupPath, sha256Hex ext original,
      sha256Hex ext patched, now⟩ with
  | none => exact hunprinted
  | some text =>
    have hne : PatchFile.state ≠ .extensionJs := noConfusion
    refine Program.Safe.bind (writeFile_safe ?_ fun written => ?_)
    · rw [writeFile_of_ne hne]
      exact ⟨hinv .goesThrough _ text htext rfl, hwritten _ text htext rfl⟩
    · rw [writeFile_of_ne hne]
      exact ⟨hinv (.fails written) _ text htext rfl, hfails (.fails written) _ text htext rfl⟩

variable {source : List Char}

theorem reportPatched_safe {ends : Install → Except PatchError PatchReport → Prop} {now : Nat} (hinv : inv install)
    (hstate : ∀ fault state text, (install.disk .backup ≠ none ∨ install.disk .legacyBackup ≠ none) →
      ext.printState state = some text → state.patchedSha256 = sha256Hex ext source →
      inv (install.setFile .state (writtenContents fault (install.disk .state) (encodeText text))))
    (hends : ∀ install outcome, inv install → (∀ backupPath, outcome ≠ .ok ⟨.patched, backupPath⟩) →
      ends install outcome) : Program.Safe fileMachine Unbroken inv ends install (reportPatched ext source now) := by
  have hreport : ∀ backupPath next, (install.disk .backup ≠ none ∨ install.disk .legacyBackup ≠ none) →
      (next none = (ensureStateForExistingPatch ext backupPath .state source now >>= fun _ =>
        pure ⟨.alreadyPatched, some backupPath⟩)) →
      (∀ file, next (some file) = pure ⟨.alreadyPatched, some backupPath⟩) →
      Program.Safe fileMachine Unbroken inv ends install (managedStatePath >>= next) := by
    intro backupPath next hbackup hnone hsome
    have hdone : ∀ install, inv install → ends install (.ok ⟨.alreadyPatched, some backupPath⟩) := by
      intro install hinstall
      apply hends install _ hinstall
      intro path hpath
      cases hpath
    have herror : ∀ install error, inv install → ends install (.error error) := by
      intro install error hinstall
      apply hends install _ hinstall
      intro path hpath
      cases hpath
    refine Program.Safe.bind (managedStatePath_safe hinv (fun file _ => ?_) ?_)
    · dsimp only
      rw [hsome]
      exact hdone install hinv
    dsimp only
    rw [hnone]
    refine Program.Safe.bind (Program.Safe.bind (fileExists_safe hinv (fun _ => hdone install hinv) fun _ => ?_))
    refine Program.Safe.bind (fileExists_safe hinv (fun _ => ?_) fun _ => hdone install hinv)
    refine Program.Safe.bind (readToString_safe hinv (fun original _ => ?_) (herror install _ hinv))
    have hwrite : ∀ fault state text, ext.printState state = some text → state.patchedSha256 = sha256Hex ext source →
        inv (install.setFile .state (writtenContents fault (install.disk .state) (encodeText text))) :=
      fun fault state text => hstate fault state text hbackup
    refine writePatchState_safe hwrite (fun state text htext hdigest => ?_) (fun fault state text htext hdigest => ?_) ?_
    · exact hdone _ (hwrite .goesThrough state text htext hdigest)
    · exact herror _ _ (hwrite fault state text htext hdigest)
    · exact herror install _ hinv
  refine Program.Safe.bind (managedBackupPath_safe hinv (fun hsome => ?_) (fun _ hsome => ?_) ?_)
  · exact hreport .backup _ (Or.inl hsome) rfl fun _ => rfl
  · exact hreport .legacyBackup _ (Or.inr hsome) rfl fun _ => rfl
  · apply hends install _ hinv
    intro path hpath
    cases hpath

theorem backUp_safe {ends : Install → Except PatchError Unit → Prop} (hinv : inv install)
    (hfits : install.disk .backup = none ∨ install.disk .backup = install.disk .extensionJs)
    (hbacked : inv (install.setFile .backup (install.disk .extensionJs)) ∧
      ends (install.setFile .backup (install.disk .extensionJs)) (.ok ())) (hfails : ends install (.error .backup)) :
    Program.Safe fileMachine Unbroken inv ends install backUp := by
  refine Program.Safe.bind (fileExists_safe hinv (fun hseen => ?_) fun _ => ?_)
  · have hsame : install.setFile .backup (install.disk .extensionJs) = install := by
      rw [← hfits.resolve_left hseen, setFile_same]
    rw [hsame] at hbacked
    exact hbacked.2
  · refine Program.Safe.bind (copyFile_safe hinv (fun contents hcontents => ?_) hfails)
    rw [← hcontents]
    exact hbacked

theorem Consistent.backUp (h : Consistent ext install) (hsource : install.readText .extensionJs = some source)
    (hplain : ¬carriesRemoteControl ext source)
    (hfits : install.disk .backup = none ∨ install.disk .backup = install.disk .extensionJs) :
    Consistent ext (install.setFile .backup (install.disk .extensionJs)) := by
  have hjs : (install.setFile .backup (install.disk .extensionJs)).readText .extensionJs =
      install.readText .extensionJs := by
    rfl
  refine ⟨fun before hbefore => Or.inl ?_, fun hnone text htext => ⟨fun _ => ?_, fun file recorded hfile hrecorded => ?_⟩⟩
  · rw [setFile_disk]
    rcases h.kept before hbefore with hkept | ⟨_, _, hfile | ⟨text, htext, hcarries⟩⟩
    · rcases hfits with hgone | hsame
      · rw [hgone] at hkept
        cases hkept
      · rw [← hsame]
        exact hkept
    · exact hfile
    · rw [hsource] at htext
      cases htext
      exact absurd hcarries hplain
  · rw [hjs, hsource] at htext
    cases htext
    exact hplain
  · rw [hjs] at htext
    have hstate : install.recorded ext file = some recorded := by
      rw [← hrecorded, Install.recorded, Install.recorded, Install.readText, Install.readText,
        setFile_disk_of_ne]
      rcases hfile with hfile | hfile
      · rw [hfile]
        exact noConfusion
      · rw [hfile]
        exact noConfusion
    exact (h.quiet hnone text htext).2 file recorded hfile hstate

theorem Install.writeFile_patch_of_ne {contents : Option ByteArray} (hne : contents ≠ install.disk .extensionJs) :
    (install.writeFile .extensionJs contents).patch = install.disk .extensionJs := by
  rw [Install.writeFile, if_pos ⟨rfl, hne⟩]

theorem Consistent.writeFile (h : Consistent ext install)
    (hbackup : install.disk .backup = install.disk .extensionJs) (contents : Option ByteArray)
    (hthere : install.disk .extensionJs ≠ none) : Consistent ext (install.writeFile .extensionJs contents) := by
  by_cases hsame : contents = install.disk .extensionJs
  · rw [Install.writeFile, if_neg fun hand => hand.2 hsame, hsame, setFile_same]
    exact h
  · have hpatch := writeFile_patch_of_ne hsame
    refine ⟨fun before hbefore => Or.inl ?_, fun hnone => absurd (hpatch.symm.trans hnone) hthere⟩
    rw [writeFile_disk, setFile_disk_of_ne noConfusion, hbackup, ← hpatch]
    exact hbefore

/-- A printed state is read back, and what is left of it when its end is missing is no state. -/
structure ReadsBack (ext : PatchExternals) : Prop where
  printed : ∀ state text, ext.printState state = some text → ext.readState text = some state
  truncated : ∀ state text first, ext.printState state = some text → first <+: text → first ≠ text →
    ext.readState first = none

/-- A patch that `restore` is going to take back: the state file is of this patch, or cannot be read. -/
structure Undoable (ext : PatchExternals) (install : Install) (patched : List Char) : Prop where
  text : install.readText .extensionJs = some patched
  backup : ∃ before, install.disk .backup = some before ∧ before ≠ encodeText patched
  state : install.disk .state ≠ none
  recorded : ∀ recorded, install.recorded ext .state = some recorded →
    recorded.patchedSha256 = sha256Hex ext patched
  carries : install.recorded ext .state = none → carriesRemoteControl ext patched

variable {file : PatchFile} {text : List Char}

theorem Install.readText_of_disk (h : install.disk file = some (encodeText text)) :
    install.readText file = some text := by
  rw [Install.readText, h]
  exact decodeText_encodeText text

theorem Install.recorded_of_disk (h : install.disk file = some (encodeText text)) :
    install.recorded ext file = ext.readState text := by
  rw [Install.recorded, readText_of_disk h]
  rfl

theorem writePatch_safe (hread : ReadsBack ext) (h : Consistent ext install) {now : Nat}
    (hsource : install.readText .extensionJs = some source)
    (hpatched : patchRemoteControlSource ext source = some patched) (hne : patched ≠ source)
    (hfits : install.disk .backup = none ∨ install.disk .backup = install.disk .extensionJs) :
    Program.Safe fileMachine Unbroken (Consistent ext)
      (fun install outcome => Consistent ext install ∧
        ∀ backupPath, outcome = .ok ⟨.patched, backupPath⟩ → ∃ text, Undoable ext install text)
      install (writePatch ext source patched now) := by
  have hplain : ¬carriesRemoteControl ext source := by
    intro hcarries
    exact hne (Option.some.inj (hpatched.symm.trans hcarries))
  obtain ⟨contents, hcontents, hdecoded⟩ := bind_eq_some_iff.mp hsource
  have hdisk : install.disk .extensionJs = some (encodeText source) := by
    rw [hcontents, encodeText_of_decodeText hdecoded]
  have hbacked := h.backUp hsource hplain hfits
  refine Program.Safe.bind (backUp_safe h hfits ⟨hbacked, ?_⟩ ⟨h, fun path hpath => by cases hpath⟩)
  have hbackup : (install.setFile .backup (install.disk .extensionJs)).disk .backup =
      (install.setFile .backup (install.disk .extensionJs)).disk .extensionJs := by
    rw [setFile_disk, setFile_disk_of_ne noConfusion]
  have hjs : (install.setFile .backup (install.disk .extensionJs)).disk .extensionJs = some (encodeText source) := by
    rw [setFile_disk_of_ne noConfusion, hdisk]
  generalize install.setFile .backup (install.disk .extensionJs) = backed at hbacked hbackup hjs
  have hthere : backed.disk .extensionJs ≠ none := by
    rw [hjs]
    exact some_ne_none _
  have hwrites : ∀ contents, Consistent ext (backed.writeFile .extensionJs contents) :=
    fun contents => hbacked.writeFile hbackup contents hthere
  refine Program.Safe.bind (writeFile_safe ⟨hwrites _, ?_⟩ fun written =>
    ⟨hwrites _, hwrites _, fun path hpath => by cases hpath⟩)
  have hdiffers : some (encodeText patched) ≠ backed.disk .extensionJs := by
    rw [hjs]
    intro heq
    have hsame := congrArg decodeText (Option.some.inj heq)
    rw [decodeText_encodeText, decodeText_encodeText] at hsame
    exact hne (Option.some.inj hsame)
  have hpatch := writeFile_patch_of_ne hdiffers
  have hwritten := hwrites (some (encodeText patched))
  have hnewjs : (backed.writeFile .extensionJs (some (encodeText patched))).disk .extensionJs =
      some (encodeText patched) := by
    rw [writeFile_disk, setFile_disk]
  have hnewbackup : (backed.writeFile .extensionJs (some (encodeText patched))).disk .backup =
      some (encodeText source) := by
    rw [writeFile_disk, setFile_disk_of_ne noConfusion, hbackup, hjs]
  generalize backed.writeFile .extensionJs (some (encodeText patched)) = written at hpatch hwritten hnewjs hnewbackup
  have hsome : written.patch ≠ none := by
    rw [hpatch]
    exact hthere
  have hstates : ∀ contents, Consistent ext (written.setFile .state contents) := by
    intro contents
    have hsame : SameBackups written (written.setFile .state contents) :=
      SameBackups.setFile ⟨rfl, rfl, rfl⟩ noConfusion noConfusion contents
    exact hsame.consistent hwritten hsome (Or.inl (setFile_disk_of_ne noConfusion))
  refine Program.Safe.bind (writePatchState_safe (fun fault state text _ _ => hstates _)
    (fun state text htext hdigest => ?_) (fun fault state text _ _ => ⟨hstates _, fun path hpath => by cases hpath⟩)
    ⟨hwritten, fun path hpath => by cases hpath⟩)
  refine ⟨hstates _, fun path hpath => ⟨patched, ?_⟩⟩
  have hrecorded : (written.setFile .state (some (encodeText text))).recorded ext .state = some state := by
    rw [recorded_of_disk setFile_disk, hread.printed state text htext]
  refine ⟨?_, ⟨encodeText source, ?_, ?_⟩, ?_, fun recorded hr => ?_, fun hnone => ?_⟩
  · exact readText_of_disk ((setFile_disk_of_ne noConfusion).trans hnewjs)
  · rw [setFile_disk_of_ne noConfusion, hnewbackup]
  · intro heq
    rw [hjs, heq] at hdiffers
    exact hdiffers rfl
  · rw [setFile_disk]
    exact some_ne_none _
  · rw [hrecorded] at hr
    cases hr
    exact hdigest
  · rw [hrecorded] at hnone
    cases hnone

theorem enable_safe (hread : ReadsBack ext) (h : Consistent ext install) (hfits : BackupFits ext install) (now : Nat) :
    Program.Safe fileMachine Unbroken (Consistent ext)
      (fun install outcome => Consistent ext install ∧
        ∀ backupPath, outcome = .ok ⟨.patched, backupPath⟩ → ∃ text, Undoable ext install text)
      install (enableLegacyPatchFallback ext now) := by
  refine Program.Safe.bind (readToString_safe h (fun source hsource => ?_) ⟨h, fun path hpath => by cases hpath⟩)
  dsimp only
  cases hpatched : patchRemoteControlSource ext source with
  | none => exact ⟨h, fun path hpath => by cases hpath⟩
  | some patched =>
    dsimp only
    by_cases hne : patched = source
    · rw [if_pos hne]
      refine reportPatched_safe h (fun fault state text hthere htext hdigest => ?_) fun install outcome hinstall hnot =>
        ⟨hinstall, fun path hpath => absurd hpath (hnot path)⟩
      -- a file with remote control and a backup is a patched one
      have hsome : install.patch ≠ none := by
        intro hnone
        exact (h.quiet hnone source hsource).1 hthere (hne ▸ hpatched)
      have hsame : SameBackups install
          (install.setFile .state (writtenContents fault (install.disk .state) (encodeText text))) :=
        SameBackups.setFile ⟨rfl, rfl, rfl⟩ noConfusion noConfusion _
      exact hsame.consistent h hsome (Or.inl (setFile_disk_of_ne noConfusion))
    · rw [if_neg hne]
      exact writePatch_safe hread h hsource hpatched hne (hfits source patched hsource hpatched hne)

theorem recorded_written (hread : ReadsBack ext) {fault : FileFault} {state recorded : PatchState}
    (htext : ext.printState state = some text)
    (h : (install.setFile .state (writtenContents fault (install.disk .state) (encodeText text))).recorded ext .state =
      some recorded) : recorded = state ∨ install.recorded ext .state = some recorded := by
  cases fault with
  | goesThrough =>
    have hdisk : (install.setFile .state (writtenContents .goesThrough (install.disk .state) (encodeText text))).disk
        .state = some (encodeText text) := setFile_disk
    rw [recorded_of_disk hdisk, hread.printed state text htext] at h
    exact Or.inl (Option.some.inj h).symm
  | fails written =>
    cases written with
    | none =>
      exact Or.inr h
    | some length =>
      left
      obtain ⟨first, hfirst, hrecorded⟩ := bind_eq_some_iff.mp h
      have hbytes : encodeText first = (encodeText text).extract 0 length := encodeText_of_decodeText hfirst
      by_cases hwhole : first = text
      · rw [hwhole, hread.printed state text htext] at hrecorded
        exact (Option.some.inj hrecorded).symm
      · have hprefix : first <+: text := by
          apply List.isPrefix_of_utf8Encode_append_eq_utf8Encode
            ((encodeText text).extract length (max length (encodeText text).size))
          rw [← encodeText_eq, ← encodeText_eq, hbytes, ByteArray.extract_append_extract, Nat.min_eq_left (Nat.zero_le _),
            Nat.max_eq_right (Nat.le_max_left _ _), ByteArray.extract_zero_max_size]
        rw [hread.truncated state text first htext hprefix hwhole] at hrecorded
        cases hrecorded

theorem writtenContents_ne_none {fault : FileFault} {old : Option ByteArray} {new : ByteArray} (h : old ≠ none) :
    writtenContents fault old new ≠ none := by
  cases fault with
  | goesThrough => exact some_ne_none new
  | fails written =>
    cases written with
    | none => exact h
    | some length => exact some_ne_none _

/-- Another `enable` leaves a patch that can be taken back as it is. -/
theorem enable_undoable (hread : ReadsBack ext) (h : Undoable ext install patched) (hfits : BackupFits ext install)
    (now : Nat) :
    Program.Safe fileMachine Unbroken (Undoable ext · patched) (fun install _ => Undoable ext install patched)
      install (enableLegacyPatchFallback ext now) := by
  refine Program.Safe.bind (readToString_safe h (fun source hsource => ?_) h)
  have hsame : source = patched := Option.some.inj (hsource.symm.trans h.text)
  subst hsame
  dsimp only
  cases hpatched : patchRemoteControlSource ext source with
  | none => exact h
  | some again =>
    dsimp only
    by_cases hne : again = source
    · rw [if_pos hne]
      refine reportPatched_safe h (fun fault state text _ htext hdigest => ?_) fun install outcome hinstall _ => hinstall
      obtain ⟨before, hbefore, hdiffers⟩ := h.backup
      refine ⟨?_, ⟨before, ?_, hdiffers⟩, ?_, fun recorded hrecorded => ?_, fun _ => hne ▸ hpatched⟩
      · rw [Install.readText, setFile_disk_of_ne noConfusion]
        exact h.text
      · rw [setFile_disk_of_ne noConfusion, hbefore]
      · rw [setFile_disk]
        exact writtenContents_ne_none h.state
      · rcases recorded_written hread htext hrecorded with rfl | hold
        · exact hdigest
        · exact h.recorded recorded hold
    · obtain ⟨before, hbefore, hdiffers⟩ := h.backup
      obtain ⟨contents, hcontents, hdecoded⟩ := bind_eq_some_iff.mp h.text
      rcases hfits source again h.text hpatched hne with hgone | hfile
      · rw [hbefore] at hgone
        cases hgone
      · rw [hbefore, hcontents] at hfile
        exact absurd ((Option.some.inj hfile).trans (encodeText_of_decodeText hdecoded).symm) hdiffers

theorem calmly_fileExists (h : install.disk file ≠ none) :
    calmly fileMachine install (fileExists file) = (install, .ok true) := by
  obtain ⟨contents, hcontents⟩ := ne_none_iff_exists'.mp h
  change (install, Except.ok (decide (FileFault.goesThrough = .goesThrough) && (install.disk file).isSome)) = _
  rw [hcontents]
  rfl

theorem calmly_readText (file : PatchFile) :
    calmly fileMachine install (readText file) = (install, .ok (install.readText file)) := rfl

theorem calmly_readToString (h : install.readText file = some text) :
    calmly fileMachine install (readToString file) = (install, .ok text) := by
  rw [readToString, calmly_bind_ok (calmly_readText file), h]
  rfl

theorem calmly_copyFile {source target : PatchFile} {contents : ByteArray} (h : install.disk source = some contents) :
    calmly fileMachine install (copyFile source target) =
      (install.setFile target (some contents), .ok true) := by
  change ((performFileOp (.copy source target) .goesThrough install).2,
    Except.ok (performFileOp (.copy source target) .goesThrough install).1) = _
  simp only [performFileOp, h, writtenContents, decide_true]
  rfl

theorem calmly_restore (h : Undoable ext install patched) {before : ByteArray}
    (hbefore : install.disk .backup = some before) :
    calmly fileMachine install (restoreLegacyPatchFallback ext) =
      (((install.setFile .extensionJs (some before)).setFile .state none).setFile .legacyState none,
        .ok ⟨.restored, some .backup⟩) := by
  have hsome : install.disk .backup ≠ none := by
    rw [hbefore]
    exact some_ne_none before
  have hpath : calmly fileMachine install managedStatePath = (install, .ok (some .state)) := by
    rw [managedStatePath, firstExisting, calmly_bind_ok (calmly_fileExists h.state)]
    rfl
  have hstate : calmly fileMachine install (managedState ext) = (install, .ok (install.recorded ext .state)) := by
    rw [managedState, calmly_bind_ok hpath]
    rfl
  have hbackup : calmly fileMachine install managedBackupPath = (install, .ok (some .backup)) := by
    rw [managedBackupPath, firstExisting, calmly_bind_ok (calmly_fileExists hsome)]
    rfl
  rw [restoreLegacyPatchFallback, calmly_bind_ok hstate, calmly_bind_ok hbackup]
  dsimp only
  rw [restoreFrom, calmly_bind_ok (calmly_readToString h.text)]
  have hmatches : ¬((install.recorded ext .state).any
      fun state => state.patchedSha256 != sha256Hex ext patched) = true := by
    cases hrecorded : install.recorded ext .state with
    | none => exact Bool.false_ne_true
    | some recorded =>
      rw [any_some, h.recorded recorded hrecorded, bne_self_eq_false]
      exact Bool.false_ne_true
  have hmanaged : ¬((install.recorded ext .state).isNone = true ∧
      ¬patchRemoteControlSource ext patched = some patched) := by
    rintro ⟨hnone, hplain⟩
    exact hplain (h.carries (isNone_iff_eq_none.mp hnone))
  rw [if_neg hmatches, if_neg hmanaged, copyBack, calmly_bind_ok (calmly_copyFile hbefore)]
  rfl

theorem calmly_writeFile :
    calmly fileMachine install (writeFile file text) =
      (install.writeFile file (some (encodeText text)), .ok true) := rfl

theorem calmly_backUp {contents : ByteArray} (hjs : install.disk .extensionJs = some contents) :
    calmly fileMachine install backUp =
      (if install.disk .backup = none then install.setFile .backup (some contents) else install, .ok ()) := by
  by_cases hgone : install.disk .backup = none
  · have hmissing : calmly fileMachine install (fileExists .backup) = (install, .ok false) := by
      change (install, Except.ok (decide (FileFault.goesThrough = .goesThrough) && (install.disk .backup).isSome)) = _
      rw [hgone]
      rfl
    rw [if_pos hgone, backUp, calmly_bind_ok hmissing, if_neg Bool.false_ne_true,
      calmly_bind_ok (calmly_copyFile hjs)]
    rfl
  · rw [if_neg hgone, backUp, calmly_bind_ok (calmly_fileExists hgone)]
    rfl

theorem calmly_enable {text : List Char} {now : Nat} (hsource : install.disk .extensionJs = some (encodeText source))
    (hpatched : patchRemoteControlSource ext source = some patched) (hne : patched ≠ source)
    (htext : ext.printState ⟨ext.path .extensionJs, ext.path .backup, sha256Hex ext source, sha256Hex ext patched, now⟩ =
      some text) :
    calmly fileMachine install (enableLegacyPatchFallback ext now) =
      (((if install.disk .backup = none then install.setFile .backup (some (encodeText source)) else install).writeFile
          .extensionJs (some (encodeText patched))).setFile .state (some (encodeText text)),
        .ok ⟨.patched, some .backup⟩) := by
  rw [enableLegacyPatchFallback, calmly_bind_ok (calmly_readToString (readText_of_disk hsource)), hpatched]
  dsimp only
  rw [if_neg hne, writePatch, calmly_bind_ok (calmly_backUp hsource),
    calmly_bind_ok calmly_writeFile, if_pos rfl]
  generalize (if install.disk .backup = none then install.setFile .backup (some (encodeText source)) else
    install).writeFile .extensionJs (some (encodeText patched)) = written
  have hstate : calmly fileMachine written (writePatchState ext .backup source patched .state now) =
      (written.setFile .state (some (encodeText text)), .ok ()) := by
    rw [writePatchState, htext]
    rfl
  rw [calmly_bind_ok hstate]
  rfl

end Enable

section Runs

variable (ext : PatchExternals)

/-- The events that patching can be undone after: `enable` finds no backup of other contents, no copy breaks off,
and what comes from outside does not look patched. -/
def Regular (install : Install) : PatchEvent → Prop
  | .enable now faults =>
    BackupFits ext install ∧ (enableLegacyPatchFallback ext now).Meets fileMachine Unbroken faults install
  | .restore faults => (restoreLegacyPatchFallback ext).Meets fileMachine Unbroken faults install
  | .rewrite contents => Quiet ext ((rewrite contents).run ext install).1

/-- The events that may stand between a patch and the restore that undoes it. -/
def Between (install : Install) : PatchEvent → Prop
  | .enable _ _ => True
  | .restore faults => ∃ outcome, ((restore faults).run ext install).2 = some outcome ∧ ¬Restored outcome
  | .rewrite _ => False

variable {ext} {install : Install}

theorem restore_run (h : Consistent ext install) {faults : List FileFault}
    (hmeets : Regular ext install (.restore faults)) :
    Consistent ext ((restore faults).run ext install).1 ∧
      ∀ outcome, ((restore faults).run ext install).2 = some outcome →
        RestoreEnds ext install ((restore faults).run ext install).1 outcome :=
  (restore_safe h).run h (fun _ _ hends => hends.1) hmeets

theorem enable_run (hread : ReadsBack ext) (h : Consistent ext install) {now : Nat} {faults : List FileFault}
    (hmeets : Regular ext install (.enable now faults)) :
    Consistent ext ((enable now faults).run ext install).1 ∧
      ∀ outcome, ((enable now faults).run ext install).2 = some outcome →
        ∀ backupPath, outcome = .ok ⟨.patched, backupPath⟩ →
          ∃ text, Undoable ext ((enable now faults).run ext install).1 text := by
  have hrun := (enable_safe hread h hmeets.1 now).run h (fun _ _ hends => hends.1) hmeets.2
  exact ⟨hrun.1, fun outcome houtcome => (hrun.2 outcome houtcome).2⟩

theorem patchStep_consistent (hread : ReadsBack ext) {event : PatchEvent} {next : Install} (h : Consistent ext install)
    (hmeets : Regular ext install event) (hstep : patchStep ext install event = some next) : Consistent ext next := by
  cases Option.some.inj hstep
  cases event with
  | enable now faults => exact (enable_run hread h hmeets).1
  | restore faults => exact (restore_run h hmeets).1
  | rewrite contents =>
    refine Consistent.mk (fun before hbefore => ?_) (fun _ => hmeets)
    cases hbefore

theorem patchStep_undoable (hread : ReadsBack ext) {event : PatchEvent} {next : Install}
    (h : Consistent ext install ∧ ∃ text, Undoable ext install text)
    (hmeets : Regular ext install event ∧ Between ext install event) (hstep : patchStep ext install event = some next) :
    Consistent ext next ∧ ∃ text, Undoable ext next text := by
  refine ⟨patchStep_consistent hread h.1 hmeets.1 hstep, ?_⟩
  obtain ⟨text, htext⟩ := h.2
  cases Option.some.inj hstep
  cases event with
  | enable now faults =>
    have hrun := (enable_undoable hread htext hmeets.1.1 now).run htext (fun _ _ hends => hends) hmeets.1.2
    exact ⟨text, hrun.1⟩
  | restore faults =>
    obtain ⟨outcome, houtcome, hnot⟩ := hmeets.2
    obtain ⟨_, ⟨hrestored, _⟩ | ⟨_, hsame⟩⟩ := (restore_run h.1 hmeets.1).2 outcome houtcome
    · exact absurd hrestored hnot
    · refine ⟨text, ?_⟩
      rw [hsame]
      exact htext
  | rewrite contents => exact absurd hmeets.2 not_false

/-- Taking a patch back is the inverse of patching, in every run of regular events. -/
theorem patch_undone (hread : ReadsBack ext) {start : Install} (hstart : Start ext start) {events : List PatchEvent}
    (hmeets : Runs.Meets (patchStep ext) (Regular ext) start events)
    (hrun : Runs.run (patchStep ext) start events = some install) :
    (∀ faults, Regular ext install (.restore faults) →
      ∀ outcome, ((restore faults).run ext install).2 = some outcome →
        (Restored outcome → install.patch ≠ none ∧
          ((restore faults).run ext install).1.disk .extensionJs = install.patch) ∧
        (¬Restored outcome →
          ((restore faults).run ext install).1.disk .extensionJs = install.disk .extensionJs)) ∧
    ∀ now faults backupPath, Regular ext install (.enable now faults) →
      ((enable now faults).run ext install).2 = some (.ok ⟨.patched, backupPath⟩) →
      ∀ between later,
        Runs.Meets (patchStep ext) (fun install event => Regular ext install event ∧ Between ext install event)
          ((enable now faults).run ext install).1 between →
        Runs.run (patchStep ext) ((enable now faults).run ext install).1 between = some later →
        Restored (calmly fileMachine later (restoreLegacyPatchFallback ext)).2 := by
  have hconsistent := Runs.run_invariant_of_meets (Consistent ext)
    (fun s event t hs hm hstep => patchStep_consistent hread hs hm hstep) hstart.consistent hmeets hrun
  constructor
  · intro faults hregular outcome houtcome
    obtain ⟨_, ⟨hrestored, hpatched, hback⟩ | ⟨hnot, hsame⟩⟩ := (restore_run hconsistent hregular).2 outcome houtcome
    · exact ⟨fun _ => ⟨hpatched, hback⟩, fun hnot => absurd hrestored hnot⟩
    · exact ⟨fun hrestored => absurd hrestored hnot, fun _ => by rw [hsame]⟩
  · intro now faults backupPath hregular hpatched between later hbetween hlater
    have henabled := enable_run hread hconsistent hregular
    have hundoable := henabled.2 _ hpatched backupPath rfl
    obtain ⟨_, text, htext⟩ := Runs.run_invariant_of_meets
      (fun install => Consistent ext install ∧ ∃ text, Undoable ext install text)
      (fun s event t hs hm hstep => patchStep_undoable hread hs hm hstep) ⟨henabled.1, hundoable⟩ hbetween hlater
    obtain ⟨before, hbefore, _⟩ := htext.backup
    rw [calmly_restore htext hbefore]
    exact ⟨.backup, rfl⟩

end Runs

section Update

def launchArray : List Char := "[\"app-server\",\"--analytics-default-enabled\"]".toList

def patchedArray : List Char := "[\"app-server\",\"--analytics-default-enabled\",\"--remote-control\"]".toList

/-- Versions of the extension that call the same helper by different names. -/
def versionText (array : List Char) (name : Char) : List Char :=
  appServerSpawnMarker ++ ',' :: name :: '(' :: array ++ [')']

def sumHash (bytes : List UInt8) : Vector UInt8 32 := Vector.replicate 32 (bytes.foldl (· + ·) 0)

def versionPath : PatchFile → String
  | .extensionJs => "/e/extension.js"
  | .backup => "/e/extension.js.bak-mochiport"
  | .state => "/e/extension.js.mochiport-state.json"
  | .legacyBackup => "/e/extension.js.bak-codexhub"
  | .legacyState => "/e/extension.js.codexhub-state.json"

def versionState (name : Char) : PatchState where
  extensionJs := versionPath .extensionJs
  backupPath := versionPath .backup
  originalSha256 := hexEncode (sumHash (encodeText (versionText launchArray name)).toList).toList
  patchedSha256 := hexEncode (sumHash (encodeText (versionText patchedArray name)).toList).toList
  patchedAtUnixSecs := 0

def stateTextHead : List Char :=
  "\x7b\n  \"extensionJs\": \"/e/extension.js\",\n  \"backupPath\": \"/e/extension.js.bak-mochiport\",\n".toList ++
    "  \"originalSha256\": \"".toList

def stateTextMiddle : List Char := "\",\n  \"patchedSha256\": \"".toList

def stateTextTail : List Char := "\",\n  \"patchedAtUnixSecs\": 0\n\x7d".toList

def stateText (original patched : String) : List Char :=
  stateTextHead ++ original.toList ++ stateTextMiddle ++ patched.toList ++ stateTextTail

def versionStateText (name : Char) : List Char :=
  stateText (versionState name).originalSha256 (versionState name).patchedSha256

/-- The outside world on two versions of the extension. -/
def versionExternals : PatchExternals where
  path := versionPath
  sha256 := sumHash
  readArgs text :=
    if text = launchArray then some ["app-server", "--analytics-default-enabled"]
    else if text = patchedArray then some ["app-server", "--analytics-default-enabled", "--remote-control"]
    else none
  printState state :=
    if versionState 'f' = state then some (versionStateText 'f')
    else if versionState 'g' = state then some (versionStateText 'g')
    else none
  readState text :=
    if versionStateText 'f' = text then some (versionState 'f')
    else if versionStateText 'g' = text then some (versionState 'g')
    else none

set_option maxRecDepth 10000 in
theorem versionStateText_ne : versionStateText 'f' ≠ versionStateText 'g' := by decide +kernel

theorem stateText_length {original patched original' patched' : String}
    (horiginal : original.toList.length = original'.toList.length)
    (hpatched : patched.toList.length = patched'.toList.length) :
    (stateText original patched).length = (stateText original' patched').length := by
  rw [stateText, stateText]
  simp only [List.length_append, horiginal, hpatched]

theorem versionStateText_length (name other : Char) :
    (versionStateText name).length = (versionStateText other).length := by
  apply stateText_length
  · rw [versionState, versionState, hexEncode_length, hexEncode_length, Vector.length_toList, Vector.length_toList]
  · rw [versionState, versionState, hexEncode_length, hexEncode_length, Vector.length_toList, Vector.length_toList]

set_option maxRecDepth 10000 in
theorem versionState_ne : versionState 'f' ≠ versionState 'g' := by decide +kernel

theorem versionExternals_readsBack : ReadsBack versionExternals where
  printed := by
    intro state text htext
    unfold versionExternals at htext ⊢
    dsimp only at htext ⊢
    split at htext
    next hstate =>
      cases htext
      rw [if_pos rfl, hstate]
    next =>
      split at htext
      next hstate =>
        cases htext
        rw [if_neg versionStateText_ne, if_pos rfl, hstate]
      next => cases htext
  truncated := by
    intro state text first htext hprefix hne
    have htexts : text = versionStateText 'f' ∨ text = versionStateText 'g' := by
      unfold versionExternals at htext
      dsimp only at htext
      split at htext
      next =>
        cases htext
        exact Or.inl rfl
      next =>
        split at htext
        next =>
          cases htext
          exact Or.inr rfl
        next => cases htext
    have hlength : text.length = (versionStateText 'g').length := by
      rcases htexts with rfl | rfl
      · exact versionStateText_length 'f' 'g'
      · rfl
    have hother : ∀ whole : List Char, whole.length = (versionStateText 'g').length → whole ≠ first := by
      intro whole hwhole heq
      apply hne
      apply hprefix.eq_of_length
      rw [← heq, hwhole, hlength]
    unfold versionExternals
    dsimp only
    rw [if_neg (hother _ (versionStateText_length 'f' 'g')), if_neg (hother _ rfl)]

def freshInstall : Install where
  disk file := if file = .extensionJs then some (encodeText (versionText launchArray 'f')) else none
  patch := none

set_option maxRecDepth 10000 in
theorem patch_version_f : patchRemoteControlSource versionExternals (versionText launchArray 'f') =
    some (versionText patchedArray 'f') := by decide +kernel

set_option maxRecDepth 10000 in
theorem patch_version_g : patchRemoteControlSource versionExternals (versionText launchArray 'g') =
    some (versionText patchedArray 'g') := by decide +kernel

theorem patchedArray_ne : patchedArray ≠ launchArray := by decide +kernel

theorem versionText_injective {array other : List Char} {name name' : Char}
    (h : versionText array name = versionText other name') : array = other ∧ name = name' := by
  rw [versionText, versionText, List.append_assoc, List.append_assoc] at h
  obtain ⟨hname, hrest⟩ := List.cons.inj (List.cons.inj (List.append_cancel_left h)).2
  exact ⟨List.append_cancel_right (List.cons.inj hrest).2, hname⟩

theorem encodeText_injective {text other : List Char} (h : encodeText text = encodeText other) : text = other := by
  have hdecoded := congrArg decodeText h
  rw [decodeText_encodeText, decodeText_encodeText] at hdecoded
  exact Option.some.inj hdecoded

variable {name : Char}

section

variable (h : name = 'f' ∨ name = 'g')
include h

theorem printState_version : versionExternals.printState (versionState name) = some (versionStateText name) := by
  rcases h with rfl | rfl
  · exact if_pos rfl
  · exact (if_neg versionState_ne).trans (if_pos rfl)

theorem patch_version :
    patchRemoteControlSource versionExternals (versionText launchArray name) =
      some (versionText patchedArray name) := by
  rcases h with rfl | rfl
  · exact patch_version_f
  · exact patch_version_g

theorem calmly_enable_version {install : Install}
    (hjs : install.disk .extensionJs = some (encodeText (versionText launchArray name))) {backup : ByteArray}
    (hbackup : install.disk .backup = some backup ∨
      install.disk .backup = none ∧ backup = encodeText (versionText launchArray name)) :
    ∃ patched, calmly fileMachine install (enableLegacyPatchFallback versionExternals 0) =
        (patched, .ok ⟨.patched, some .backup⟩) ∧
      patched.patch = some (encodeText (versionText launchArray name)) ∧
      patched.disk .extensionJs = some (encodeText (versionText patchedArray name)) ∧
      patched.disk .backup = some backup ∧ patched.disk .state = some (encodeText (versionStateText name)) := by
  have hne : versionText patchedArray name ≠ versionText launchArray name :=
    fun heq => patchedArray_ne (versionText_injective heq).1
  have hrun := @calmly_enable versionExternals install _ _ _ 0 hjs (patch_version h) hne (printState_version h)
  have hdisk : ∀ backed : Install, backed.disk .extensionJs = install.disk .extensionJs →
      backed.disk .backup = some backup →
      let patched := (backed.writeFile .extensionJs (some (encodeText (versionText patchedArray name)))).setFile .state
        (some (encodeText (versionStateText name)))
      patched.patch = some (encodeText (versionText launchArray name)) ∧
        patched.disk .extensionJs = some (encodeText (versionText patchedArray name)) ∧
        patched.disk .backup = some backup ∧ patched.disk .state = some (encodeText (versionStateText name)) := by
    intro backed hbackedJs hbacked
    have hdiffers : some (encodeText (versionText patchedArray name)) ≠ backed.disk .extensionJs := by
      rw [hbackedJs, hjs]
      intro heq
      exact hne (encodeText_injective (Option.some.inj heq))
    refine ⟨?_, ?_, ?_, setFile_disk⟩
    · rw [setFile_patch, writeFile_patch_of_ne hdiffers, hbackedJs, hjs]
    · rw [setFile_disk_of_ne noConfusion, writeFile_disk, setFile_disk]
    · rw [setFile_disk_of_ne noConfusion, writeFile_disk, setFile_disk_of_ne noConfusion, hbacked]
  rcases hbackup with hkept | ⟨hgone, hnew⟩
  · have hsome : ¬install.disk .backup = none := by
      rw [hkept]
      exact some_ne_none backup
    rw [if_neg hsome] at hrun
    exact ⟨_, hrun, hdisk install rfl hkept⟩
  · rw [if_pos hgone, ← hnew] at hrun
    exact ⟨_, hrun, hdisk _ (setFile_disk_of_ne noConfusion) setFile_disk⟩

end

/-- Patched, updated in place and patched again, the extension is put back to the version before the update. -/
theorem older_version_restored :
    ∃ first second third install, Start versionExternals freshInstall ∧
      Runs.run (patchStep versionExternals) freshInstall
        [.enable 0 (List.replicate first .goesThrough), .rewrite (encodeText (versionText launchArray 'g')),
          .enable 0 (List.replicate second .goesThrough)] = some install ∧
      install.patch = some (encodeText (versionText launchArray 'g')) ∧
      ((restore (List.replicate third .goesThrough)).run versionExternals install).2 =
        some (.ok ⟨.restored, some .backup⟩) ∧
      ((restore (List.replicate third .goesThrough)).run versionExternals install).1.disk .extensionJs =
        some (encodeText (versionText launchArray 'f')) ∧
      encodeText (versionText launchArray 'f') ≠ encodeText (versionText launchArray 'g') := by
  obtain ⟨patched, hpatched, _, _, hbackup, _⟩ :=
    @calmly_enable_version 'f' (Or.inl rfl) freshInstall rfl _ (Or.inr ⟨rfl, rfl⟩)
  obtain ⟨first, hfirst⟩ := exists_run_calm fileMachine freshInstall
    (enableLegacyPatchFallback versionExternals 0)
  rw [hpatched] at hfirst
  let updated : Install :=
    { patched.setFile .extensionJs (some (encodeText (versionText launchArray 'g'))) with patch := none }
  have hupdatedJs : updated.disk .extensionJs = some (encodeText (versionText launchArray 'g')) := by
    change (patched.setFile .extensionJs (some (encodeText (versionText launchArray 'g')))).disk .extensionJs = _
    exact setFile_disk
  have hupdatedBackup : updated.disk .backup = some (encodeText (versionText launchArray 'f')) := by
    change (patched.setFile .extensionJs (some (encodeText (versionText launchArray 'g')))).disk .backup = _
    exact (setFile_disk_of_ne noConfusion).trans hbackup
  obtain ⟨again, hagain, hpatch, hjs, hkept, hstate⟩ :=
    calmly_enable_version (Or.inr rfl) hupdatedJs (Or.inl hupdatedBackup)
  obtain ⟨second, hsecond⟩ := exists_run_calm fileMachine updated
    (enableLegacyPatchFallback versionExternals 0)
  rw [hagain] at hsecond
  have hrecorded : again.recorded versionExternals .state = some (versionState 'g') := by
    rw [recorded_of_disk hstate]
    exact versionExternals_readsBack.printed _ _ (printState_version (Or.inr rfl))
  have hundoable : Undoable versionExternals again (versionText patchedArray 'g') := by
    refine ⟨readText_of_disk hjs, ⟨_, hkept, fun heq => ?_⟩, ?_, fun recorded hr => ?_, fun hnone => ?_⟩
    · exact patchedArray_ne (versionText_injective (encodeText_injective heq)).1.symm
    · rw [hstate]
      exact some_ne_none _
    · rw [hrecorded] at hr
      cases hr
      rfl
    · rw [hrecorded] at hnone
      cases hnone
  obtain ⟨third, hthird⟩ := exists_run_calm fileMachine again
    (restoreLegacyPatchFallback versionExternals)
  rw [calmly_restore hundoable hkept] at hthird
  refine ⟨first, second, third, again, ?_, ?_, hpatch, ?_, ?_, fun heq => ?_⟩
  · exact .untouched freshInstall rfl fun file hfile => if_neg hfile
  · rw [Runs.run_cons_eq_some]
    refine ⟨patched, congrArg some (congrArg Prod.fst hfirst), ?_⟩
    rw [Runs.run_cons_eq_some]
    refine ⟨updated, rfl, ?_⟩
    rw [Runs.run_cons_eq_some]
    exact ⟨again, congrArg some (congrArg Prod.fst hsecond), rfl⟩
  · exact congrArg Prod.snd hthird
  · have hdisk := congrArg (fun result => result.1.disk .extensionJs) hthird
    refine hdisk.trans ?_
    rw [setFile_disk_of_ne noConfusion, setFile_disk_of_ne noConfusion,
      setFile_disk]
  · have hname := (versionText_injective (encodeText_injective heq)).2
    exact absurd hname (by decide)

/-- A patch of a version that nothing was done to is taken back. -/
theorem patch_undone_fresh :
    ∃ faults, Restored (calmly fileMachine ((enable 0 faults).run versionExternals freshInstall).1
      (restoreLegacyPatchFallback versionExternals)).2 := by
  obtain ⟨patched, hpatched, _⟩ :=
    @calmly_enable_version 'f' (Or.inl rfl) freshInstall rfl _ (Or.inr ⟨rfl, rfl⟩)
  obtain ⟨n, hn⟩ := exists_run_calm fileMachine freshInstall
    (enableLegacyPatchFallback versionExternals 0)
  rw [hpatched] at hn
  have hstart : Start versionExternals freshInstall := .untouched freshInstall rfl fun file hfile => if_neg hfile
  have hregular : Regular versionExternals freshInstall (.enable 0 (List.replicate n .goesThrough)) := by
    refine ⟨fun source patched _ _ _ => Or.inl rfl, meets_of_forall fun fault hfault op install => ?_⟩
    rw [List.eq_of_mem_replicate hfault]
    cases op with
    | fileExists file => cases file <;> trivial
    | readToString file | copy source target | write file contents | removeFile file => trivial
  have hundone := (@patch_undone versionExternals freshInstall versionExternals_readsBack freshInstall hstart [] trivial rfl).2 0 _ (some .backup)
    hregular (congrArg Prod.snd hn) [] _ trivial rfl
  exact ⟨_, hundone⟩

end Update

end MochiPort
