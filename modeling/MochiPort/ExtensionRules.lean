import MochiPort.ExtensionRestore

/-! What the operations on the files of the extension may do, one rule for each. -/

namespace MochiPort

open CrashPrograms

/-- No copy breaks off after it has begun to write, and the look for the backup does not miss it where there is an
older one. -/
def Unbroken (op : FileOp) (fault : FileFault) (install : Install) : Prop :=
  match op, fault with
  | .copy _ _, .fails (some _) => False
  | .fileExists .backup, .fails _ => install.disk .legacyBackup = none
  | _, _ => True

section Files

variable {install : Install} {file other : PatchFile} {contents : Option ByteArray}

@[simp] theorem Install.setFile_disk : (install.setFile file contents).disk file = contents := by
  simp only [Install.setFile, Function.update_self]

theorem Install.setFile_disk_of_ne (h : other ≠ file) :
    (install.setFile file contents).disk other = install.disk other := by
  simp only [Install.setFile, Function.update_of_ne h]

@[simp] theorem Install.setFile_patch : (install.setFile file contents).patch = install.patch := rfl

theorem Install.setFile_same : install.setFile file (install.disk file) = install := by
  rw [Install.setFile, Function.update_eq_self]

@[simp] theorem Install.writeFile_disk : (install.writeFile file contents).disk = (install.setFile file contents).disk := by
  unfold Install.writeFile
  split <;> rfl

theorem Install.writeFile_of_ne (h : file ≠ .extensionJs) :
    install.writeFile file contents = install.setFile file contents :=
  if_neg fun hand => h hand.1

end Files

section Rules

variable {install : Install} {inv : Install → Prop} {file source target : PatchFile}

variable {ends : Install → Except PatchError Bool → Prop}

section

variable (hinv : inv install)
include hinv

theorem fileExists_safe (hseen : install.disk file ≠ none → ends install (.ok true))
    (hmissed : (file = .backup → install.disk .backup = none ∨ install.disk .legacyBackup = none) →
      ends install (.ok false)) : Program.Safe fileMachine Unbroken inv ends install (fileExists file) := by
  intro fault hallowed
  refine ⟨hinv, ?_⟩
  change ends install (.ok (decide (fault = .goesThrough) && (install.disk file).isSome))
  cases fault with
  | goesThrough =>
    cases hfile : install.disk file with
    | none => exact hmissed fun hbackup => Or.inl (hbackup ▸ hfile)
    | some contents => exact hseen (by rw [hfile]; exact Option.some_ne_none contents)
  | fails written =>
    apply hmissed
    intro hbackup
    subst hbackup
    exact Or.inr hallowed

theorem readText_safe {ends : Install → Except PatchError (Option (List Char)) → Prop} (hread : ends install (.ok (install.readText file))) (hfails : ends install (.ok none)) :
    Program.Safe fileMachine Unbroken inv ends install (readText file) := by
  intro fault hallowed
  refine ⟨hinv, ?_⟩
  cases fault with
  | goesThrough => exact hread
  | fails written => exact hfails

theorem readToString_safe {ends : Install → Except PatchError (List Char) → Prop} (hread : ∀ text, install.readText file = some text → ends install (.ok text))
    (hfails : ends install (.error (.read file))) :
    Program.Safe fileMachine Unbroken inv ends install (readToString file) := by
  refine Program.Safe.bind (readText_safe hinv ?_ hfails)
  cases htext : install.readText file with
  | none => exact hfails
  | some text => exact hread text htext

theorem copyFile_safe (hcopied : ∀ contents, install.disk source = some contents →
      inv (install.setFile target (some contents)) ∧ ends (install.setFile target (some contents)) (.ok true))
    (hfails : ends install (.ok false)) :
    Program.Safe fileMachine Unbroken inv ends install (copyFile source target) := by
  intro fault hallowed
  change inv (performFileOp (.copy source target) fault install).2 ∧
    ends (performFileOp (.copy source target) fault install).2
      (.ok (performFileOp (.copy source target) fault install).1)
  cases hsource : install.disk source with
  | none =>
    have hperform : performFileOp (.copy source target) fault install = (false, install) := by
      simp only [performFileOp, hsource]
      rfl
    rw [hperform]
    exact ⟨hinv, hfails⟩
  | some contents =>
    cases fault with
    | goesThrough =>
      have hperform : performFileOp (.copy source target) .goesThrough install =
          (true, install.setFile target (some contents)) := by
        simp only [performFileOp, hsource, writtenContents, decide_true]
        rfl
      rw [hperform]
      exact hcopied contents hsource
    | fails written =>
      cases written with
      | none =>
        have hperform : performFileOp (.copy source target) (.fails none) install = (false, install) := by
          simp only [performFileOp, hsource, writtenContents, Install.setFile_same]
          rfl
        rw [hperform]
        exact ⟨hinv, hfails⟩
      | some length => exact absurd hallowed not_false

omit hinv in
theorem writeFile_safe {text : List Char} (hwritten : inv (install.writeFile file (some (encodeText text))) ∧
      ends (install.writeFile file (some (encodeText text))) (.ok true))
    (hfails : ∀ written, inv (install.writeFile file (writtenContents (.fails written) (install.disk file) (encodeText text))) ∧
      ends (install.writeFile file (writtenContents (.fails written) (install.disk file) (encodeText text))) (.ok false)) :
    Program.Safe fileMachine Unbroken inv ends install (writeFile file text) := by
  intro fault hallowed
  cases fault with
  | goesThrough => exact hwritten
  | fails written => exact hfails written

omit hinv in
theorem removeFile_safe
    (hremoved : inv (install.setFile file none) ∧ ∀ removed, ends (install.setFile file none) (.ok removed))
    (hfails : inv install ∧ ends install (.ok false)) :
    Program.Safe fileMachine Unbroken inv ends install (removeFile file) := by
  intro fault hallowed
  cases fault with
  | goesThrough => exact ⟨hremoved.1, hremoved.2 _⟩
  | fails written => exact hfails

theorem managedBackupPath_safe {ends : Install → Except PatchError (Option PatchFile) → Prop} (hbackup : install.disk .backup ≠ none → ends install (.ok (some .backup)))
    (hlegacy : install.disk .backup = none → install.disk .legacyBackup ≠ none →
      ends install (.ok (some .legacyBackup))) (hnone : ends install (.ok none)) :
    Program.Safe fileMachine Unbroken inv ends install managedBackupPath := by
  refine Program.Safe.bind (fileExists_safe hinv hbackup fun hmissed => ?_)
  refine Program.Safe.bind (fileExists_safe hinv (fun hseen => ?_) fun _ => hnone)
  rcases hmissed rfl with hgone | hgone
  · exact hlegacy hgone hseen
  · exact absurd hgone hseen

theorem managedStatePath_safe {ends : Install → Except PatchError (Option PatchFile) → Prop} (hstate : ∀ file, file = .state ∨ file = .legacyState → ends install (.ok (some file)))
    (hnone : ends install (.ok none)) : Program.Safe fileMachine Unbroken inv ends install managedStatePath := by
  refine Program.Safe.bind (fileExists_safe hinv (fun _ => hstate .state (Or.inl rfl)) fun _ => ?_)
  exact Program.Safe.bind (fileExists_safe hinv (fun _ => hstate .legacyState (Or.inr rfl)) fun _ => hnone)

end

/-- What a state file says, if it can be read. -/
def Install.recorded (ext : PatchExternals) (install : Install) (file : PatchFile) : Option PatchState :=
  (install.readText file).bind ext.readState

theorem managedState_safe {ext : PatchExternals} {ends : Install → Except PatchError (Option PatchState) → Prop}
    (hinv : inv install)
    (hstate : ∀ file state, file = .state ∨ file = .legacyState → install.recorded ext file = some state →
      ends install (.ok (some state))) (hnone : ends install (.ok none)) :
    Program.Safe fileMachine Unbroken inv ends install (managedState ext) := by
  refine Program.Safe.bind (managedStatePath_safe hinv (fun file hfile => ?_) hnone)
  refine Program.Safe.bind (readText_safe hinv ?_ hnone)
  change ends install (.ok (install.recorded ext file))
  cases hrecorded : install.recorded ext file with
  | none => exact hnone
  | some state => exact hstate file state hfile hrecorded

end Rules

end MochiPort
