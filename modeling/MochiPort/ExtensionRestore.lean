import MochiPort.ExtensionPatch
import MochiPort.Runs

/-! Patching the extension, and taking the patch back. -/

namespace MochiPort

open CrashPrograms

inductive PatchAction
  | patched
  | alreadyPatched
  | officialSupported
  | noBackup
  | skippedModified
  | skippedUnmanaged
  | restored
  deriving DecidableEq

namespace PatchAction

def name : PatchAction → String
  | patched => "patched"
  | alreadyPatched => "already_patched"
  | officialSupported => "official_supported"
  | noBackup => "no_backup"
  | skippedModified => "skipped_modified"
  | skippedUnmanaged => "skipped_unmanaged"
  | restored => "restored"

def message : PatchAction → String
  | patched => "已为 VS Code Codex 插件启动参数加入 --remote-control。"
  | alreadyPatched => "VS Code Codex 插件已存在 MochiPort 兼容补丁。"
  | officialSupported => "VS Code Codex 插件已原生支持 --remote-control，未写入补丁。"
  | noBackup => "没有找到 MochiPort 创建的插件备份，未还原。"
  | skippedModified => "VS Code 插件文件已被用户或插件更新修改，未自动还原。"
  | skippedUnmanaged => "当前插件文件不像 MochiPort 写入的版本，未自动还原。"
  | restored => "已还原 VS Code Codex 插件原始启动方式。"

end PatchAction

structure PatchReport where
  action : PatchAction
  backupPath : Option PatchFile
  deriving DecidableEq

inductive PatchError
  | read (file : PatchFile)
  | launchArgs
  | backup
  | write (file : PatchFile)
  | stateText
  | restore (source : PatchFile)
  deriving DecidableEq

def PatchError.message (ext : PatchExternals) : PatchError → String
  | read file => "failed to read " ++ ext.path file
  | launchArgs => "无法识别 VS Code Codex 插件启动参数位置: " ++ ext.path .extensionJs
  | backup => "failed to backup " ++ ext.path .extensionJs ++ " to " ++ ext.path .backup
  | write file => "failed to write " ++ ext.path file
  | stateText => "path contains invalid UTF-8 characters"
  | restore source => "failed to restore " ++ ext.path .extensionJs ++ " from " ++ ext.path source

abbrev PatchProgram : Type → Type := Program FileOp FileOp.Answer PatchError

def fileExists (file : PatchFile) : PatchProgram Bool := Program.ask (FileOp.fileExists file)

def readText (file : PatchFile) : PatchProgram (Option (List Char)) := Program.ask (FileOp.readToString file)

/-- `fs::copy`, and whether it went through. -/
def copyFile (source target : PatchFile) : PatchProgram Bool := Program.ask (FileOp.copy source target)

/-- `fs::write`, and whether it went through. -/
def writeFile (file : PatchFile) (text : List Char) : PatchProgram Bool :=
  Program.ask (FileOp.write file (encodeText text))

def removeFile (file : PatchFile) : PatchProgram Bool := Program.ask (FileOp.removeFile file)

def firstExisting : List PatchFile → PatchProgram (Option PatchFile)
  | [] => pure none
  | file :: files => do if ← fileExists file then pure (some file) else firstExisting files

def managedBackupPath : PatchProgram (Option PatchFile) := firstExisting [.backup, .legacyBackup]

def managedStatePath : PatchProgram (Option PatchFile) := firstExisting [.state, .legacyState]

def readToString (file : PatchFile) : PatchProgram (List Char) := do
  match ← readText file with
  | some text => pure text
  | none => .fail (.read file)

section Programs

variable (ext : PatchExternals)

def writePatchState (backupPath : PatchFile) (original patched : List Char) (statePath : PatchFile) (now : Nat) :
    PatchProgram Unit :=
  let state : PatchState :=
    { extensionJs := ext.path .extensionJs
      backupPath := ext.path backupPath
      originalSha256 := sha256Hex ext original
      patchedSha256 := sha256Hex ext patched
      patchedAtUnixSecs := now }
  match ext.printState state with
  | none => .fail .stateText
  | some text => do
    if ← writeFile statePath text then pure ()
    else .fail (.write statePath)

/-- A state file that cannot be read counts as none. -/
def readPatchState (file : PatchFile) : PatchProgram (Option PatchState) := do
  let text ← readText file
  pure (text.bind ext.readState)

def ensureStateForExistingPatch (backupPath statePath : PatchFile) (current : List Char) (now : Nat) :
    PatchProgram Unit := do
  if ← fileExists statePath then pure ()
  else if ← fileExists backupPath then
    let original ← readToString backupPath
    writePatchState ext backupPath original current statePath now
  else pure ()

/-- What `enable_legacy_patch_fallback_for_install` does with a file that needs no patch. -/
def reportPatched (source : List Char) (now : Nat) : PatchProgram PatchReport := do
  match ← managedBackupPath with
  | none => pure ⟨.officialSupported, none⟩
  | some backupPath =>
    match ← managedStatePath with
    | none =>
      ensureStateForExistingPatch ext backupPath .state source now
      pure ⟨.alreadyPatched, some backupPath⟩
    | some _ => pure ⟨.alreadyPatched, some backupPath⟩

/-- A backup that is there already is kept. -/
def backUp : PatchProgram Unit := do
  if ← fileExists .backup then pure ()
  else if ← copyFile .extensionJs .backup then pure ()
  else .fail .backup

/-- What `enable_legacy_patch_fallback_for_install` does with a file that gets a patch. -/
def writePatch (source patched : List Char) (now : Nat) : PatchProgram PatchReport := do
  backUp
  if ← writeFile .extensionJs patched then
    writePatchState ext .backup source patched .state now
    pure ⟨.patched, some .backup⟩
  else .fail (.write .extensionJs)

def enableLegacyPatchFallback (now : Nat) : PatchProgram PatchReport := do
  let source ← readToString .extensionJs
  match patchRemoteControlSource ext source with
  | none => .fail .launchArgs
  | some patched => if patched = source then reportPatched ext source now else writePatch ext source patched now

/-- The state that `restore_legacy_patch_fallback_for_install` goes by. -/
def managedState : PatchProgram (Option PatchState) := do
  match ← managedStatePath with
  | none => pure none
  | some path => readPatchState ext path

def copyBack (backupPath : PatchFile) : PatchProgram PatchReport := do
  if ← copyFile backupPath .extensionJs then
    let _ ← removeFile .state
    let _ ← removeFile .legacyState
    pure ⟨.restored, some backupPath⟩
  else .fail (.restore backupPath)

/-- What `restore_legacy_patch_fallback_for_install` does once it has a backup. -/
def restoreFrom (state : Option PatchState) (backupPath : PatchFile) : PatchProgram PatchReport := do
  let current ← readToString .extensionJs
  if state.any fun state => state.patchedSha256 != sha256Hex ext current then
    pure ⟨.skippedModified, some backupPath⟩
  else if state.isNone ∧ ¬patchRemoteControlSource ext current = some current then
    pure ⟨.skippedUnmanaged, some backupPath⟩
  else copyBack backupPath

def restoreLegacyPatchFallback : PatchProgram PatchReport := do
  let state ← managedState ext
  match ← managedBackupPath with
  | none => pure ⟨.noBackup, some .backup⟩
  | some backupPath => restoreFrom ext state backupPath

end Programs

/-! Runs of patching, taking back and updates from outside. -/

inductive PatchEvent
  | enable (now : Nat) (faults : List FileFault)
  | restore (faults : List FileFault)
  | rewrite (contents : ByteArray)

section Runs

variable (ext : PatchExternals)

/-- The files after an event, and what it reports; an update reports nothing. -/
def PatchEvent.run (event : PatchEvent) (install : Install) : Install × Option (Except PatchError PatchReport) :=
  match event with
  | .enable now faults => (enableLegacyPatchFallback ext now).run fileMachine faults install
  | .restore faults => (restoreLegacyPatchFallback ext).run fileMachine faults install
  | .rewrite contents => ({ install.setFile .extensionJs (some contents) with patch := none }, none)

def patchStep (install : Install) (event : PatchEvent) : Option Install := some (event.run ext install).1

end Runs

end MochiPort
