import MochiPort.RecoveryKeys

namespace MochiPort

open Attendance Option

namespace RecoverySystem

variable {s t : RecoverySystem}

/-- What every reached state keeps besides: default keys are those of sources, connections stay open until they are
removed, and epochs are numbered in turn. -/
structure Tracked (s : RecoverySystem) : Prop where
  sound : s.Sound
  sourced : ∀ connectionEpoch connection, connectionForEpochLocked s.remote connectionEpoch = some connection →
    ∃ sourceKind, connection.defaultClientKey = sourceDefaultClientKey sourceKind
  opened : ∀ connectionEpoch connection, connectionForEpochLocked s.remote connectionEpoch = some connection →
    connection.connected = true ∧ connection.outboundTx = true
  below : ∀ connectionEpoch connection, connectionForEpochLocked s.remote connectionEpoch = some connection →
    connectionEpoch ≤ s.nextConnectionEpoch
  tasksBelow : ∀ task ∈ s.tasks, task.connectionEpoch ≤ s.nextConnectionEpoch

theorem start_tracked : start.Tracked where
  sound := by
    constructor
    · intro client hrecovering
      obtain ⟨connection, hlookup, _⟩ := exists_of_connectionExists hrecovering.1.1
      cases hlookup
    · intro i j client hi
      obtain ⟨task, htask, _⟩ := hi
      cases htask
  sourced connectionEpoch connection h := by cases h
  opened connectionEpoch connection h := by cases h
  below connectionEpoch connection h := by cases h
  tasksBelow task htask := by cases htask

theorem Sound.write (h : s.Sound) (htasks : t.tasks = s.tasks)
    (hrecovering : ∀ client, t.Recovering client → s.Recovering client)
    (hcloses : ∀ client, s.CloseQueued client → t.CloseQueued client)
    (habout : ∀ task ∈ s.tasks, ∀ client, t.About task client → s.About task client)
    (hstill : ∀ task ∈ s.tasks, ∀ client, t.Recovering client → s.About task client → t.About task client) :
    t.Sound := by
  constructor
  · refine h.neverStuck.mono hrecovering hcloses ?_
    intro i client hraised hrecovers
    obtain ⟨task, htask, hstage, hclient⟩ := hrecovers
    refine .inr ⟨task, ?_, hstage, hstill task (List.mem_of_getElem? htask) client hraised hclient⟩
    rw [htasks]
    exact htask
  · refine h.single.transfer ?_
    intro client
    refine ⟨client, ?_⟩
    intro i hruns
    obtain ⟨task, htask, hstage, hclient⟩ := hruns
    rw [htasks] at htask
    exact ⟨task, htask, hstage, habout task (List.mem_of_getElem? htask) client hclient⟩

theorem Tracked.write (h : s.Tracked) (hkeys : KeepsKeys s.remote t.remote) (htasks : t.tasks = s.tasks)
    (hnext : t.nextConnectionEpoch = s.nextConnectionEpoch)
    (hrecovering : ∀ client, t.Recovering client → s.Recovering client)
    (hcloses : ∀ client, s.CloseQueued client → t.CloseQueued client) : t.Tracked where
  sound := by
    refine h.sound.write htasks hrecovering hcloses ?_ ?_
    · intro task _ client habout
      obtain ⟨hepoch, hexists, hkey⟩ := habout
      rw [hkeys.resolve hexists] at hkey
      exact ⟨hepoch, hkeys.connectionExists hexists, hkey⟩
    · intro task _ client hraised habout
      obtain ⟨hepoch, _, hkey⟩ := habout
      refine ⟨hepoch, hraised.1.1, ?_⟩
      rw [hkeys.resolve hraised.1.1]
      exact hkey
  sourced connectionEpoch connection' hlookup := by
    obtain ⟨connection, hold, hkey, _⟩ := hkeys hlookup
    rw [hkey]
    exact h.sourced connectionEpoch connection hold
  opened connectionEpoch connection' hlookup := by
    obtain ⟨connection, hold, _, hconnected, hopen⟩ := hkeys hlookup
    rw [hconnected, hopen]
    exact h.opened connectionEpoch connection hold
  below connectionEpoch connection' hlookup := by
    obtain ⟨connection, hold, _⟩ := hkeys hlookup
    rw [hnext]
    exact h.below connectionEpoch connection hold
  tasksBelow task htask := by
    rw [htasks] at htask
    rw [hnext]
    exact h.tasksBelow task htask

theorem Tracked.setRemote (h : s.Tracked) {remote : PendingRemote} (hkeys : KeepsKeys s.remote remote) :
    (s.setRemote remote).Tracked := by
  refine h.write hkeys rfl rfl ?_ fun _ hclose => hclose
  intro client hrecovering
  obtain ⟨hlive, _, hflag⟩ := hrecovering
  refine ⟨⟨hkeys.connectionExists hlive.1, hlive.2⟩, ?_⟩
  unfold RecoverySystem.setRemote fieldsAt at hflag
  dsimp only at hflag
  split at hflag
  next hpresent => exact ⟨hpresent, hflag⟩
  next => cases hflag

theorem moveTo_tasks {i j : Nat} {stage : RecoveryStage} {moved : RecoveryTask} :
    (s.moveTo i stage).tasks[j]? = some moved ↔
      ∃ task, s.tasks[j]? = some task ∧ moved = if i = j then { task with stage := stage } else task := by
  unfold moveTo
  rw [List.getElem?_modify]
  constructor
  · intro h
    obtain ⟨task, htask, heq⟩ := map_eq_some_iff.mp h
    exact ⟨task, htask, heq.symm⟩
  · intro h
    obtain ⟨task, htask, heq⟩ := h
    exact map_eq_some_iff.mpr ⟨task, htask, heq.symm⟩

theorem moveTo_tasks_self {i : Nat} {task : RecoveryTask} (h : s.tasks[i]? = some task) (stage : RecoveryStage) :
    (s.moveTo i stage).tasks[i]? = some { task with stage := stage } := by
  rw [moveTo_tasks]
  refine ⟨task, h, ?_⟩
  rw [if_pos rfl]

theorem moveTo_tasks_ne {i j : Nat} (h : i ≠ j) (stage : RecoveryStage) :
    (s.moveTo i stage).tasks[j]? = s.tasks[j]? := by
  unfold moveTo
  simp [h]

theorem Tracked.moveTo (h : s.Tracked) {i : Nat} {task : RecoveryTask} (htask : s.tasks[i]? = some task)
    {stage : RecoveryStage} (hrunning : stage.running = true → task.stage.running = true)
    (hdone : stage.recovering = true ∨
      ∀ client, task.stage.recovering = true → s.About task client → s.Recovering client → s.CloseQueued client) :
    (s.moveTo i stage).Tracked where
  sound := by
    constructor
    · refine h.sound.neverStuck.mono (fun _ hrecovering => hrecovering) (fun _ hclose => hclose) ?_
      intro j client hrecovering hrecovers
      obtain ⟨other, hother, hstage, habout⟩ := hrecovers
      by_cases hij : i = j
      · rw [← hij, htask] at hother
        cases hother
        rcases hdone with hstill | hdone
        · rw [← hij]
          exact .inr ⟨_, moveTo_tasks_self htask stage, hstill, habout⟩
        · exact .inl (hdone client hstage habout hrecovering)
      · refine .inr ⟨other, ?_, hstage, habout⟩
        rw [moveTo_tasks_ne hij]
        exact hother
    · refine h.sound.single.transfer ?_
      intro client
      refine ⟨client, ?_⟩
      intro j hruns
      obtain ⟨moved, hmoved, hstage, habout⟩ := hruns
      by_cases hij : i = j
      · rw [← hij, moveTo_tasks_self htask] at hmoved
        cases hmoved
        rw [← hij]
        exact ⟨task, htask, hrunning hstage, habout⟩
      · rw [moveTo_tasks_ne hij] at hmoved
        exact ⟨moved, hmoved, hstage, habout⟩
  sourced := h.sourced
  opened := h.opened
  below := h.below
  tasksBelow moved hmem := by
    obtain ⟨j, hmoved⟩ := List.mem_iff_getElem?.mp hmem
    obtain ⟨other, hother, heq⟩ := moveTo_tasks.mp hmoved
    have hbelow := h.tasksBelow other (List.mem_of_getElem? hother)
    rw [heq]
    split
    next => exact hbelow
    next => exact hbelow

variable {connectionEpoch : Nat}

theorem Tracked.onConnection (h : s.Tracked) {connection : PendingConnection}
    (hlookup : connectionForEpochLocked s.remote connectionEpoch = some connection) (clientKey : String) :
    clientKeyOnConnection connection (resolveRemoteClientKeyForConnectionLocked s.remote connectionEpoch clientKey) =
      resolveRemoteClientKeyForConnectionLocked s.remote connectionEpoch clientKey := by
  obtain ⟨sourceKind, hsource⟩ := h.sourced connectionEpoch connection hlookup
  have hsettled : SettledKey connection.defaultClientKey := by
    rw [hsource]
    exact settledKey_sourceDefault sourceKind
  exact (resolved_settled hlookup hsettled clientKey).onConnection connection

theorem clearRecovery_remote (connectionEpoch : Nat) (clientKey : String) :
    (s.clearRecovery connectionEpoch clientKey).remote = s.remote := by
  unfold clearRecovery
  split
  next => rfl
  next => rfl

theorem recovering_of_clearRecovery {clientKey : String} {client : Nat × String}
    (h : (s.clearRecovery connectionEpoch clientKey).Recovering client) : s.Recovering client := by
  unfold clearRecovery at h
  split at h
  next => exact h
  next connection hlookup =>
    obtain ⟨hlive, hpresent, hflag⟩ := h
    refine ⟨hlive, hpresent, ?_⟩
    unfold setFields at hflag
    dsimp only at hflag
    rw [Function.update_apply] at hflag
    split at hflag
    next => cases hflag
    next => exact hflag

theorem not_recovering_clearRecovery {clientKey : String} {connection : PendingConnection}
    (hlookup : connectionForEpochLocked s.remote connectionEpoch = some connection) :
    ¬(s.clearRecovery connectionEpoch clientKey).Recovering
      (connectionEpoch, clientKeyOnConnection connection clientKey) := by
  intro h
  unfold clearRecovery at h
  rw [hlookup] at h
  obtain ⟨_, _, hflag⟩ := h
  unfold setFields at hflag
  dsimp only at hflag
  rw [Function.update_self] at hflag
  cases hflag

theorem Tracked.clearRecovery (h : s.Tracked) (connectionEpoch : Nat) (clientKey : String) :
    (s.clearRecovery connectionEpoch clientKey).Tracked := by
  have hkeys : KeepsKeys s.remote (s.clearRecovery connectionEpoch clientKey).remote := by
    rw [clearRecovery_remote]
    exact .refl s.remote
  refine h.write hkeys ?_ ?_ (fun _ hrecovering => recovering_of_clearRecovery hrecovering) ?_
  · unfold RecoverySystem.clearRecovery
    split
    next => rfl
    next => rfl
  · unfold RecoverySystem.clearRecovery
    split
    next => rfl
    next => rfl
  · intro client hclose
    unfold RecoverySystem.clearRecovery
    split
    next => exact hclose
    next => exact hclose

theorem Tracked.markInitialized (h : s.Tracked) (connectionEpoch : Nat) (clientKey : String) :
    Tracked { s with remote := MochiPort.markInitialized s.remote connectionEpoch clientKey } := by
  refine h.write (.updateClient ..) rfl rfl ?_ fun _ hclose => hclose
  intro client hrecovering
  obtain ⟨hlive, hpresent, hflag⟩ := hrecovering
  have hkeys : KeepsKeys s.remote (MochiPort.markInitialized s.remote connectionEpoch clientKey) := .updateClient ..
  refine ⟨⟨hkeys.connectionExists hlive.1, hlive.2⟩, ?_, hflag⟩
  exact (clientAt_updateClient ..).symm.trans hpresent

section

variable {m : RecoverySystem} {connectionEpoch : Nat} {connection : PendingConnection} {oldClientKey : String}
  {newSourceKind : RemoteControlSourceKind} {client : PendingClient}

theorem exists_moved (hlookup : connectionForEpochLocked s.remote connectionEpoch = some connection)
    (hremote : m.remote = setConnection s.remote connectionEpoch
      (movedConnection connection oldClientKey (sourceDefaultClientKey newSourceKind) client)) (epoch : Nat) :
    connectionExistsLocked m.remote epoch = connectionExistsLocked s.remote epoch := by
  unfold connectionExistsLocked
  rw [hremote, lookup_setConnection]
  split
  next hepoch =>
    rw [hepoch, hlookup]
    rfl
  next => rfl

variable {other : Nat × String}

section

variable (hlookup : connectionForEpochLocked s.remote connectionEpoch = some connection)
  (hremote : m.remote = setConnection s.remote connectionEpoch (movedConnection connection oldClientKey (sourceDefaultClientKey newSourceKind) client))
include hlookup hremote

theorem recovering_moved (hended : m.ended = s.ended)
    (hrecovery : ∀ other, other ≠ (connectionEpoch, sourceDefaultClientKey newSourceKind) →
      m.recovery other = s.recovery other)
    (hcleared : ¬m.Recovering (connectionEpoch, sourceDefaultClientKey newSourceKind)) (h : m.Recovering other) :
    s.Recovering other ∧ other ≠ (connectionEpoch, sourceDefaultClientKey newSourceKind) ∧
      other ≠ (connectionEpoch, oldClientKey) := by
  have hnew : other ≠ (connectionEpoch, sourceDefaultClientKey newSourceKind) := by
    intro heq
    rw [heq] at h
    exact hcleared h
  obtain ⟨hlive, hpresent, hflag⟩ := h
  rw [hrecovery other hnew] at hflag
  unfold Live at hlive
  rw [exists_moved hlookup hremote, hended] at hlive
  unfold clientAt at hpresent
  rw [hremote, lookup_setConnection] at hpresent
  split at hpresent
  next hepoch =>
    rw [bind_some] at hpresent
    unfold movedConnection at hpresent
    have hkey : other.2 ≠ sourceDefaultClientKey newSourceKind := by
      intro heq
      exact hnew (Prod.ext hepoch heq)
    rw [Table.lookup_insert_eq, if_neg hkey, Table.lookup_erase_eq] at hpresent
    split at hpresent
    next => cases hpresent
    next hold =>
      refine ⟨⟨hlive, ?_, hflag⟩, hnew, ?_⟩
      · unfold clientAt
        rw [hepoch, hlookup]
        exact hpresent
      · intro heq
        exact hold (congrArg Prod.snd heq)
  next hepoch =>
    refine ⟨⟨hlive, hpresent, hflag⟩, hnew, ?_⟩
    intro heq
    exact hepoch (congrArg Prod.fst heq)

theorem about_moved {task : RecoveryTask} (h : m.About task other) :
    s.About task (if other = (connectionEpoch, sourceDefaultClientKey newSourceKind) then
      (connectionEpoch, connection.defaultClientKey) else other) := by
  obtain ⟨hepoch, hexists, hkey⟩ := h
  rw [exists_moved hlookup hremote] at hexists
  by_cases hsame : other.1 = connectionEpoch
  · have hmoved : connectionForEpochLocked m.remote connectionEpoch =
        some (movedConnection connection oldClientKey (sourceDefaultClientKey newSourceKind) client) := by
      rw [hremote, lookup_setConnection, if_pos rfl]
    rw [hsame] at hepoch hexists hkey
    by_cases hdefault : StandsForDefault (normalizeRemoteClientKey task.clientKey)
    · rw [resolve_default hmoved hdefault] at hkey
      have hnew : other = (connectionEpoch, sourceDefaultClientKey newSourceKind) := Prod.ext hsame hkey.symm
      rw [if_pos hnew]
      exact ⟨hepoch, hexists, resolve_default hlookup hdefault⟩
    · have hnew : other ≠ (connectionEpoch, sourceDefaultClientKey newSourceKind) := by
        intro heq
        have hother : other.2 = sourceDefaultClientKey newSourceKind := congrArg Prod.snd heq
        rw [resolve_own hdefault, hother] at hkey
        rw [hkey] at hdefault
        exact hdefault (standsForDefault_source newSourceKind)
      rw [resolve_own hdefault] at hkey
      rw [if_neg hnew]
      refine ⟨hepoch.trans hsame.symm, ?_, ?_⟩
      · rw [hsame]
        exact hexists
      · rw [resolve_own hdefault]
        exact hkey
  · have hnew : other ≠ (connectionEpoch, sourceDefaultClientKey newSourceKind) := by
      intro heq
      exact hsame (congrArg Prod.fst heq)
    rw [if_neg hnew]
    refine ⟨hepoch, hexists, ?_⟩
    unfold resolveRemoteClientKeyForConnectionLocked defaultClientKeyForConnectionLocked at hkey ⊢
    rw [hremote, lookup_setConnection, if_neg hsame] at hkey
    exact hkey

theorem about_stays {task : RecoveryTask} (hother : other ≠ (connectionEpoch, connection.defaultClientKey))
    (h : s.About task other) : m.About task other := by
  obtain ⟨hepoch, hexists, hkey⟩ := h
  rw [← exists_moved hlookup hremote] at hexists
  refine ⟨hepoch, hexists, ?_⟩
  by_cases hsame : other.1 = connectionEpoch
  · rw [hsame] at hkey ⊢
    by_cases hdefault : StandsForDefault (normalizeRemoteClientKey task.clientKey)
    · rw [resolve_default hlookup hdefault] at hkey
      exact absurd (Prod.ext hsame hkey.symm) hother
    · rw [resolve_own hdefault] at hkey ⊢
      exact hkey
  · unfold resolveRemoteClientKeyForConnectionLocked defaultClientKeyForConnectionLocked at hkey ⊢
    rw [hremote, lookup_setConnection, if_neg hsame]
    exact hkey

end

theorem Tracked.move (h : s.Tracked) (hlookup : connectionForEpochLocked s.remote connectionEpoch = some connection)
    (hremote : m.remote = setConnection s.remote connectionEpoch
      (movedConnection connection oldClientKey (sourceDefaultClientKey newSourceKind) client))
    (htasks : m.tasks = s.tasks) (hcloses : m.closes = s.closes) (hended : m.ended = s.ended)
    (hnext : m.nextConnectionEpoch = s.nextConnectionEpoch)
    (hrecovery : ∀ other, other ≠ (connectionEpoch, sourceDefaultClientKey newSourceKind) →
      m.recovery other = s.recovery other)
    (hcleared : ¬m.Recovering (connectionEpoch, sourceDefaultClientKey newSourceKind))
    (hguard : oldClientKey ≠ connection.defaultClientKey →
      s.Recovering (connectionEpoch, connection.defaultClientKey) →
      s.CloseQueued (connectionEpoch, connection.defaultClientKey)) : m.Tracked where
  sound := by
    constructor
    · refine h.sound.neverStuck.transfer ?_
      intro other hrecovering
      obtain ⟨hold, hnew, hmoved⟩ := recovering_moved hlookup hremote hended hrecovery hcleared hrecovering
      have hclose : s.CloseQueued other → m.CloseQueued other := by
        intro hclose
        unfold CloseQueued
        rw [hcloses]
        exact hclose
      by_cases hdefault : other = (connectionEpoch, connection.defaultClientKey)
      · rw [hdefault] at hold hmoved hclose ⊢
        refine .inl (hclose (hguard ?_ hold))
        intro heq
        rw [heq] at hmoved
        exact hmoved rfl
      · refine .inr ⟨other, hold, hclose, ?_⟩
        intro i hrecovers
        obtain ⟨task, htask, hstage, habout⟩ := hrecovers
        rw [← htasks] at htask
        exact .inr ⟨i, task, htask, hstage, about_stays hlookup hremote hdefault habout⟩
    · refine h.sound.single.transfer ?_
      intro other
      refine ⟨if other = (connectionEpoch, sourceDefaultClientKey newSourceKind) then
        (connectionEpoch, connection.defaultClientKey) else other, ?_⟩
      intro i hruns
      obtain ⟨task, htask, hstage, habout⟩ := hruns
      rw [htasks] at htask
      exact ⟨task, htask, hstage, about_moved hlookup hremote habout⟩
  sourced epoch other hother := by
    rw [hremote, lookup_setConnection] at hother
    split at hother
    next =>
      rw [← Option.some.inj hother]
      exact ⟨newSourceKind, rfl⟩
    next => exact h.sourced epoch other hother
  opened epoch other hother := by
    rw [hremote, lookup_setConnection] at hother
    split at hother
    next =>
      rw [← Option.some.inj hother]
      exact h.opened connectionEpoch connection hlookup
    next => exact h.opened epoch other hother
  below epoch other hother := by
    rw [hremote, lookup_setConnection] at hother
    rw [hnext]
    split at hother
    next hepoch =>
      rw [hepoch]
      exact h.below connectionEpoch connection hlookup
    next => exact h.below epoch other hother
  tasksBelow task htask := by
    rw [htasks] at htask
    rw [hnext]
    exact h.tasksBelow task htask

end

theorem recovering_recordSourceKind {connectionEpoch : Nat} {userAgent : Option String} {client : Nat × String}
    (h : Recovering { s with remote := (recordSourceKind s.remote connectionEpoch userAgent).1 } client) :
    s.Recovering client := by
  obtain ⟨hlive, hpresent, hflag⟩ := h
  have hkeys : KeepsKeys s.remote (recordSourceKind s.remote connectionEpoch userAgent).1 := .recordSourceKind ..
  refine ⟨⟨hkeys.connectionExists hlive.1, hlive.2⟩, ?_, hflag⟩
  rw [← clientAt_recordSourceKind client]
  exact hpresent

theorem Tracked.recordSourceKind (h : s.Tracked) (connectionEpoch : Nat) (userAgent : Option String) :
    Tracked { s with remote := (MochiPort.recordSourceKind s.remote connectionEpoch userAgent).1 } :=
  h.write (.recordSourceKind ..) rfl rfl (fun _ hrecovering => recovering_recordSourceKind hrecovering)
    fun _ hclose => hclose

variable {connection : PendingConnection}

theorem migrate_clearRecovery {connectionEpoch : Nat} {oldClientKey clientId streamId : String}
    {newSourceKind : RemoteControlSourceKind} (hlookup : connectionForEpochLocked s.remote connectionEpoch = some connection)
    (hmoves : migrates connection (normalizeRemoteClientKey oldClientKey) newSourceKind clientId streamId = true) :
    ∃ client, (s.migrateSourceDefaultClientKey connectionEpoch oldClientKey newSourceKind clientId
        streamId).clearRecovery connectionEpoch (sourceDefaultClientKey newSourceKind) =
      { s.setFields (connectionEpoch, sourceDefaultClientKey newSourceKind)
          { s.recovery (connectionEpoch, normalizeRemoteClientKey oldClientKey) with recoveryStartedAtMs := none } with
        remote := setConnection s.remote connectionEpoch (movedConnection connection
          (normalizeRemoteClientKey oldClientKey) (sourceDefaultClientKey newSourceKind) client) } := by
  obtain ⟨client, _, hmigrate⟩ := migrate_moved hlookup hmoves
  have hother := (migrates_iff.mp hmoves).2.2.1
  refine ⟨client, ?_⟩
  unfold migrateSourceDefaultClientKey
  rw [hmigrate]
  rw [if_neg fun heq => hother heq.symm]
  unfold RecoverySystem.clearRecovery
  rw [lookup_setConnection, if_pos rfl]
  dsimp only
  rw [(settledKey_sourceDefault newSourceKind).onConnection]
  unfold setFields
  dsimp only
  rw [Function.update_idem, Function.update_self]

theorem Tracked.migrate (h : s.Tracked) {connectionEpoch : Nat} {oldClientKey clientId streamId : String}
    {newSourceKind : RemoteControlSourceKind}
    (hguard : ∀ connection, connectionForEpochLocked s.remote connectionEpoch = some connection →
      normalizeRemoteClientKey oldClientKey ≠ connection.defaultClientKey →
      migrates connection (normalizeRemoteClientKey oldClientKey) newSourceKind clientId streamId = true →
      s.Recovering (connectionEpoch, connection.defaultClientKey) →
      s.CloseQueued (connectionEpoch, connection.defaultClientKey)) :
    ((s.migrateSourceDefaultClientKey connectionEpoch oldClientKey newSourceKind clientId streamId).clearRecovery
      connectionEpoch (migrateSourceDefaultClientKeyLocked s.remote connectionEpoch oldClientKey newSourceKind
        clientId streamId).2).Tracked := by
  by_cases hmoves : ∃ connection, connectionForEpochLocked s.remote connectionEpoch = some connection ∧
      migrates connection (normalizeRemoteClientKey oldClientKey) newSourceKind clientId streamId = true
  · obtain ⟨connection, hlookup, hmoves⟩ := hmoves
    rw [migrate_key hlookup hmoves]
    obtain ⟨client, hmoved⟩ := migrate_clearRecovery hlookup hmoves
    rw [hmoved]
    refine h.move hlookup rfl rfl rfl rfl rfl ?_ ?_ fun hne => hguard connection hlookup hne hmoves
    · intro other hne
      exact Function.update_of_ne hne _ _
    · intro hrecovering
      have hflag := hrecovering.2.2
      unfold setFields at hflag
      dsimp only at hflag
      rw [Function.update_self] at hflag
      cases hflag
  · have hstays : ∀ connection, connectionForEpochLocked s.remote connectionEpoch = some connection →
        migrates connection (normalizeRemoteClientKey oldClientKey) newSourceKind clientId streamId = false := by
      intro connection hlookup
      rw [← Bool.not_eq_true]
      intro hmove
      exact hmoves ⟨connection, hlookup, hmove⟩
    unfold migrateSourceDefaultClientKey
    rw [migrate_stays hstays]
    rw [if_pos rfl]
    exact h.clearRecovery connectionEpoch _

theorem Tracked.handleInitializeResult (h : s.Tracked) {connectionEpoch : Nat} {clientKey userAgent : Option String}
    {clientId streamId : String}
    (hguard : s.Recoverable (.initializeResult connectionEpoch clientKey userAgent clientId streamId)) :
    (s.handleInitializeResult connectionEpoch clientKey userAgent clientId streamId).Tracked := by
  have hrecorded := h.recordSourceKind connectionEpoch userAgent
  cases clientKey with
  | none => exact hrecorded
  | some clientKey =>
    have hmigrated := @Tracked.migrate _ hrecorded connectionEpoch clientKey clientId streamId
      (MochiPort.recordSourceKind s.remote connectionEpoch userAgent).2 (by
        intro recorded hlookup hne hmoves hrecovering
        obtain ⟨connection, hold, hclients, hdefault⟩ := lookup_recordSourceKind hlookup
        rw [hdefault] at hne hrecovering ⊢
        rw [migrates_congr hclients] at hmoves
        exact hguard _ connection rfl hold hne hmoves (recovering_recordSourceKind hrecovering))
    have hmarked := hmigrated.markInitialized connectionEpoch (migrateSourceDefaultClientKeyLocked
      (MochiPort.recordSourceKind s.remote connectionEpoch userAgent).1 connectionEpoch clientKey
      (MochiPort.recordSourceKind s.remote connectionEpoch userAgent).2 clientId streamId).2
    rw [clearRecovery_remote] at hmarked
    exact hmarked

theorem Tracked.resolve_resolve (h : s.Tracked) {connectionEpoch : Nat} (hlookup : connectionForEpochLocked s.remote connectionEpoch = some connection) (clientKey : String) :
    resolveRemoteClientKeyForConnectionLocked s.remote connectionEpoch
        (resolveRemoteClientKeyForConnectionLocked s.remote connectionEpoch clientKey) =
      resolveRemoteClientKeyForConnectionLocked s.remote connectionEpoch clientKey := by
  obtain ⟨sourceKind, hsource⟩ := h.sourced connectionEpoch connection hlookup
  by_cases hdefault : StandsForDefault (normalizeRemoteClientKey clientKey)
  · have hkey := resolve_default hlookup hdefault
    rw [hkey, hsource]
    have hstands : StandsForDefault (normalizeRemoteClientKey (sourceDefaultClientKey sourceKind)) := by
      rw [normalize_source]
      exact standsForDefault_source sourceKind
    rw [resolve_default hlookup hstands, hsource]
  · rw [resolve_own hdefault]
    have hown : ¬StandsForDefault (normalizeRemoteClientKey (normalizeRemoteClientKey clientKey)) := by
      rw [normalizeRemoteClientKey_idem]
      exact hdefault
    rw [resolve_own hown, normalizeRemoteClientKey_idem]

theorem Tracked.spawn (h : s.Tracked) {connectionEpoch : Nat} {clientKey : String}
    (hlookup : connectionForEpochLocked s.remote connectionEpoch = some connection)
    (hkey : resolveRemoteClientKeyForConnectionLocked s.remote connectionEpoch clientKey = clientKey)
    (hfree : ∀ i, ¬s.RunsFor i (connectionEpoch, clientKey)) (fields : RecoveryFields) :
    Tracked { s.setFields (connectionEpoch, clientKey) fields with
      tasks := s.tasks ++ [⟨connectionEpoch, clientKey, .starting⟩] } where
  sound := by
    constructor
    · intro client hrecovering
      obtain ⟨hlive, hpresent, hflag⟩ := hrecovering
      by_cases hclient : client = (connectionEpoch, clientKey)
      · rw [hclient] at hlive ⊢
        refine .inr ⟨s.tasks.length, ⟨connectionEpoch, clientKey, .starting⟩, ?_, rfl, rfl, hlive.1, hkey⟩
        exact List.getElem?_concat_length
      · have hold : s.Recovering client := by
          refine ⟨hlive, hpresent, ?_⟩
          unfold setFields at hflag
          dsimp only at hflag
          rw [Function.update_of_ne hclient] at hflag
          exact hflag
        rcases h.sound.neverStuck client hold with hclose | ⟨i, task, htask, hstage, habout⟩
        · exact .inl hclose
        · refine .inr ⟨i, task, ?_, hstage, habout⟩
          exact (List.getElem?_append_left (List.getElem?_eq_some_iff.mp htask).1).trans htask
    · refine @Exclusive.hire _ _ _ _ h.sound.single s.tasks.length ?_ ?_
      · intro i client hi hruns
        obtain ⟨task, htask, hstage, habout⟩ := hruns
        have hlt := (List.getElem?_eq_some_iff.mp htask).1
        rw [List.length_append, List.length_singleton] at hlt
        rw [List.getElem?_append_left (by omega)] at htask
        exact ⟨task, htask, hstage, habout⟩
      · intro i client hruns
        obtain ⟨task, htask, _, hepoch, _, hresolved⟩ := hruns
        rw [List.getElem?_concat_length] at htask
        rw [← Option.some.inj htask] at hepoch hresolved
        have hclient : client = (connectionEpoch, clientKey) := by
          refine Prod.ext hepoch.symm ?_
          rw [← hresolved, ← hepoch]
          exact hkey
        rw [hclient]
        exact hfree i
  sourced := h.sourced
  opened := h.opened
  below := h.below
  tasksBelow task htask := by
    rcases List.mem_append.mp htask with hold | hnew
    · exact h.tasksBelow task hold
    · rw [List.mem_singleton.mp hnew]
      exact h.below connectionEpoch connection hlookup

variable {clientKey clientId streamId uuidLike : String}

variable {connectionEpoch : Nat}

theorem connected_of_mayStart (hlookup : connectionForEpochLocked s.remote connectionEpoch = some connection)
    (h : s.mayStart connectionEpoch clientKey clientId streamId uuidLike = true) : connection.connected = true := by
  unfold mayStart at h
  rw [hlookup, any_some] at h
  simp only [Bool.and_eq_true] at h
  exact h.1.1.1

theorem Tracked.startRecoveryLocked (h : s.Tracked) (hlookup : connectionForEpochLocked s.remote connectionEpoch = some connection)
    (hconnected : connection.connected = true) (clientKey uuidLike : String) :
    ∃ client, startRemoteControlClientRecovery s.remote connectionEpoch clientKey uuidLike =
      setConnection s.remote connectionEpoch (setClient connection
        (resolveRemoteClientKeyForConnectionLocked s.remote connectionEpoch clientKey) client) := by
  have hkey := h.onConnection hlookup clientKey
  unfold startRemoteControlClientRecovery
  rw [hlookup]
  dsimp only
  rw [hconnected, hkey]
  exact ⟨_, rfl⟩

theorem Tracked.startRecovery (h : s.Tracked) {nowMs : Nat}
    (hguard : s.Recoverable (.startRecovery connectionEpoch clientKey clientId streamId uuidLike nowMs)) :
    (s.startRecovery connectionEpoch clientKey clientId streamId uuidLike nowMs).Tracked := by
  unfold RecoverySystem.startRecovery
  split
  next => exact h
  next connection hlookup =>
    split
    next => exact h
    next =>
      have hensured := h.onConnection hlookup clientKey
      have hresolved := h.resolve_resolve hlookup clientKey
      dsimp only
      split
      next hmay =>
        have hfree := hguard hmay
        have hkeys : KeepsKeys s.remote
            (startRemoteControlClientRecovery s.remote connectionEpoch clientKey uuidLike) := .startRecovery ..
        obtain ⟨client, hstarted⟩ := h.startRecoveryLocked hlookup (connected_of_mayStart hlookup hmay) clientKey uuidLike
        generalize startRemoteControlClientRecovery s.remote connectionEpoch clientKey uuidLike = remote at hkeys hstarted ⊢
        generalize resolveRemoteClientKeyForConnectionLocked s.remote connectionEpoch clientKey = resolved
          at hensured hresolved hfree hstarted ⊢
        have hexists : connectionExistsLocked remote connectionEpoch = true := by
          rw [hstarted, exists_setClient hlookup, connectionExistsLocked, hlookup]
          exact connected_of_mayStart hlookup hmay
        obtain ⟨connection', hlookup', _⟩ := exists_of_connectionExists hexists
        have hkey : (ensureClientState connection resolved uuidLike).1 = resolved := hensured
        rw [hkey]
        refine (h.setRemote hkeys).spawn hlookup' ?_ ?_ _
        · exact (hkeys.resolve hexists resolved).trans hresolved
        · intro i hruns
          obtain ⟨task, htask, hstage, hepoch, hlive, hclient⟩ := hruns
          refine hfree i ⟨task, htask, hstage, hepoch, hkeys.connectionExists hlive, ?_⟩
          exact (hkeys.resolve hlive task.clientKey).symm.trans hclient
      next => exact h.setRemote (.setClient hlookup _ _)

theorem Tracked.canSend (h : s.Tracked) (hlive : s.Live connectionEpoch) :
    outboundTxForConnectionEpochLocked s.remote connectionEpoch = true ∧ connectionEpoch ∉ s.ended := by
  obtain ⟨connection, hlookup, hconnected⟩ := exists_of_connectionExists hlive.1
  refine ⟨?_, hlive.2⟩
  rw [outboundTxForConnectionEpochLocked, hlookup, any_some, hconnected, (h.opened _ _ hlookup).2]
  rfl

variable {task : RecoveryTask}

variable {i : Nat}

section

variable (h : s.Tracked)
include h

section

variable (htask : s.tasks[i]? = some task)
include htask

theorem Tracked.finish (hstage : task.stage = .initialized) :
    ((s.clearRecovery task.connectionEpoch (resolveRemoteClientKeyForConnectionLocked s.remote task.connectionEpoch
      task.clientKey)).moveTo i .resubscribing).Tracked := by
  have hcleared := h.clearRecovery task.connectionEpoch
    (resolveRemoteClientKeyForConnectionLocked s.remote task.connectionEpoch task.clientKey)
  have hsame : (s.clearRecovery task.connectionEpoch (resolveRemoteClientKeyForConnectionLocked s.remote
      task.connectionEpoch task.clientKey)).tasks[i]? = some task := by
    unfold RecoverySystem.clearRecovery
    split
    next => exact htask
    next => exact htask
  refine hcleared.moveTo hsame ?_ (.inr ?_)
  · intro _
    rw [hstage]
    rfl
  · intro client _ habout hrecovering
    obtain ⟨hepoch, hexists, hkey⟩ := habout
    rw [clearRecovery_remote] at hexists hkey
    rw [← hepoch] at hexists hkey
    obtain ⟨connection, hlookup, _⟩ := exists_of_connectionExists hexists
    have hnot := @not_recovering_clearRecovery s task.connectionEpoch
      (resolveRemoteClientKeyForConnectionLocked s.remote task.connectionEpoch task.clientKey) connection hlookup
    rw [h.onConnection hlookup] at hnot
    have hclient : client = (task.connectionEpoch,
        resolveRemoteClientKeyForConnectionLocked s.remote task.connectionEpoch task.clientKey) :=
      Prod.ext hepoch.symm hkey.symm
    rw [hclient] at hrecovering
    exact absurd hrecovering hnot

omit htask in
theorem Tracked.connect {remote : PendingRemote}
    (hkeys : ∀ connectionEpoch connection, connectionForEpochLocked remote connectionEpoch = some connection →
      connectionEpoch ≤ s.nextConnectionEpoch → connectionForEpochLocked s.remote connectionEpoch = some connection)
    (hnew : ∀ connectionEpoch connection, connectionForEpochLocked remote connectionEpoch = some connection →
      ¬connectionEpoch ≤ s.nextConnectionEpoch → connectionEpoch = s.nextConnectionEpoch + 1 ∧
        (∃ sourceKind, connection.defaultClientKey = sourceDefaultClientKey sourceKind) ∧
        connection.connected = true ∧ connection.outboundTx = true) :
    Tracked { s.setRemote remote with nextConnectionEpoch := s.nextConnectionEpoch + 1 } where
  sound := by
    have hexists : ∀ connectionEpoch, connectionEpoch ≤ s.nextConnectionEpoch →
        connectionExistsLocked remote connectionEpoch = true →
        connectionForEpochLocked remote connectionEpoch = connectionForEpochLocked s.remote connectionEpoch := by
      intro connectionEpoch hle hexists
      obtain ⟨connection, hlookup, _⟩ := exists_of_connectionExists hexists
      rw [hlookup, hkeys connectionEpoch connection hlookup hle]
    have hresolve : ∀ connectionEpoch clientKey, connectionEpoch ≤ s.nextConnectionEpoch →
        connectionExistsLocked remote connectionEpoch = true →
        resolveRemoteClientKeyForConnectionLocked remote connectionEpoch clientKey =
          resolveRemoteClientKeyForConnectionLocked s.remote connectionEpoch clientKey := by
      intro connectionEpoch clientKey hle hlive
      rw [resolveRemoteClientKeyForConnectionLocked, resolveRemoteClientKeyForConnectionLocked,
        defaultClientKeyForConnectionLocked, defaultClientKeyForConnectionLocked, hexists connectionEpoch hle hlive]
    refine h.sound.write rfl ?_ (fun _ hclose => hclose) ?_ ?_
    · intro client hrecovering
      obtain ⟨hlive, _, hflag⟩ := hrecovering
      change (s.fieldsAt client).recoveryStartedAtMs.isSome = true at hflag
      unfold fieldsAt at hflag
      split at hflag
      next hpresent =>
        have hle : client.1 ≤ s.nextConnectionEpoch := by
          unfold clientAt at hpresent
          cases hlookup : connectionForEpochLocked s.remote client.1 with
          | none =>
            rw [hlookup] at hpresent
            cases hpresent
          | some connection => exact h.below _ _ hlookup
        refine ⟨⟨?_, hlive.2⟩, hpresent, hflag⟩
        have hsame := hexists client.1 hle hlive.1
        unfold connectionExistsLocked
        rw [← hsame]
        exact hlive.1
      next => cases hflag
    · intro task htask client habout
      obtain ⟨hepoch, hlive, hkey⟩ := habout
      have hle : client.1 ≤ s.nextConnectionEpoch := by
        rw [← hepoch]
        exact h.tasksBelow task htask
      refine ⟨hepoch, ?_, ?_⟩
      · unfold connectionExistsLocked
        rw [← hexists client.1 hle hlive]
        exact hlive
      · rw [← hresolve client.1 _ hle hlive]
        exact hkey
    · intro task htask client hrecovering habout
      obtain ⟨hepoch, _, hkey⟩ := habout
      have hle : client.1 ≤ s.nextConnectionEpoch := by
        rw [← hepoch]
        exact h.tasksBelow task htask
      exact ⟨hepoch, hrecovering.1.1, (hresolve client.1 _ hle hrecovering.1.1).trans hkey⟩
  sourced connectionEpoch connection hlookup := by
    by_cases hle : connectionEpoch ≤ s.nextConnectionEpoch
    · exact h.sourced connectionEpoch connection (hkeys _ _ hlookup hle)
    · exact (hnew _ _ hlookup hle).2.1
  opened connectionEpoch connection hlookup := by
    by_cases hle : connectionEpoch ≤ s.nextConnectionEpoch
    · exact h.opened connectionEpoch connection (hkeys _ _ hlookup hle)
    · exact (hnew _ _ hlookup hle).2.2
  below connectionEpoch connection hlookup := by
    dsimp only
    by_cases hle : connectionEpoch ≤ s.nextConnectionEpoch
    · omega
    · have heq := (hnew _ _ hlookup hle).1
      omega
  tasksBelow task htask := by
    have hle := h.tasksBelow task htask
    dsimp only
    omega

theorem Tracked.advance (hrunning : task.stage.running = true) {stage : RecoveryStage} (hstage : stage.recovering = true) :
    (s.moveTo i stage).Tracked :=
  h.moveTo htask (fun _ => hrunning) (.inl hstage)

theorem Tracked.giveUp (hrunning : task.stage.running = true)
    (hdone : ∀ client, s.About task client → s.Recovering client → s.CloseQueued client) :
    (s.moveTo i .ended).Tracked :=
  h.moveTo htask (fun _ => hrunning) (.inr fun client _ => hdone client)

theorem Tracked.enterInitialize {clientKey uuidLike : String} {initializeId : Nat} {buildOk : Bool}
    (hstage : task.stage = .admitted clientKey initializeId) (hguard : buildOk = false → s.Dispensable i) :
    ((s.setRemote (sendInitializeLocked s.remote task.connectionEpoch clientKey uuidLike initializeId buildOk)).moveTo i
      (if (connectionForEpochLocked s.remote task.connectionEpoch).isSome && buildOk then
        .sending clientKey initializeId else .ended)).Tracked := by
  have hrunning : task.stage.running = true := by
    rw [hstage]
    rfl
  have hkeys : KeepsKeys s.remote
      (sendInitializeLocked s.remote task.connectionEpoch clientKey uuidLike initializeId buildOk) :=
    .sendInitialize ..
  have hwritten := h.setRemote hkeys
  split
  next => exact hwritten.advance htask hrunning rfl
  next hends =>
    refine hwritten.giveUp htask hrunning ?_
    intro client habout hrecovering
    obtain ⟨hlive, _, hflag⟩ := hrecovering
    obtain ⟨hepoch, hexists, hkey⟩ := habout
    have hexistsBefore := hkeys.connectionExists hexists
    have hbuild : buildOk = false := by
      obtain ⟨connection, hlookup, _⟩ := exists_of_connectionExists hexistsBefore
      rw [hepoch, hlookup, isSome_some, Bool.true_and, Bool.not_eq_true] at hends
      exact hends
    refine hguard hbuild client ⟨task, htask, hrunning, hepoch, hexistsBefore, ?_⟩ ⟨⟨hexistsBefore, hlive.2⟩, ?_⟩
    · exact (hkeys.resolve hexists task.clientKey).symm.trans hkey
    · change (s.fieldsAt client).recoveryStartedAtMs.isSome = true at hflag
      unfold fieldsAt at hflag
      split at hflag
      next hpresent => exact ⟨hpresent, hflag⟩
      next => cases hflag

end

theorem Tracked.openConnection (sourceKind : RemoteControlSourceKind) (uuidLike : String) :
    Tracked { s.setRemote (pruneInactiveRemoteConnectionsLocked (setConnection s.remote (s.nextConnectionEpoch + 1)
      (MochiPort.openConnection sourceKind uuidLike))) with nextConnectionEpoch := s.nextConnectionEpoch + 1 } := by
  refine h.connect ?_ ?_
  · intro connectionEpoch connection hlookup hle
    have hset := Table.of_lookup_retain hlookup
    change connectionForEpochLocked (setConnection s.remote _ _) connectionEpoch = some connection at hset
    rw [lookup_setConnection, if_neg (by omega)] at hset
    exact hset
  · intro connectionEpoch connection hlookup hgt
    have hset := Table.of_lookup_retain hlookup
    change connectionForEpochLocked (setConnection s.remote _ _) connectionEpoch = some connection at hset
    rw [lookup_setConnection] at hset
    split at hset
    next hepoch =>
      rw [← Option.some.inj hset]
      exact ⟨hepoch, ⟨sourceKind, rfl⟩, rfl, rfl⟩
    next => exact absurd (h.below _ _ hset) hgt

theorem step_tracked {a : RecoveryStep} (hguard : s.Recoverable a) (hstep : s.step a = some t) : t.Tracked := by
  cases a with
  | startRecovery connectionEpoch clientKey clientId streamId uuidLike nowMs =>
    have hstarted := h.startRecovery hguard
    rw [← Option.some.inj hstep]
    exact hstarted
  | spawn i | waitFailed i timedOut =>
    obtain ⟨task, htask, hstep⟩ := bind_eq_some_iff.mp hstep
    obtain ⟨hstage, hstep⟩ := ite_none_right_eq_some.mp hstep
    rw [← Option.some.inj hstep]
    exact h.advance htask (by rw [hstage]; rfl) rfl
  | abandon i =>
    obtain ⟨task, htask, hstep⟩ := bind_eq_some_iff.mp hstep
    obtain ⟨hstage, hstep⟩ := ite_none_right_eq_some.mp hstep
    rw [← Option.some.inj hstep]
    refine h.giveUp htask (by rw [hstage.1]; rfl) ?_
    intro client habout hrecovering
    have hended := hstage.2
    rw [habout.1] at hended
    exact absurd hended hrecovering.1.2
  | reset i uuidLike =>
    obtain ⟨task, htask, hstep⟩ := bind_eq_some_iff.mp hstep
    obtain ⟨hstage, hstep⟩ := ite_none_right_eq_some.mp hstep
    have hrunning : task.stage.running = true := by
      rw [hstage]
      rfl
    split at hstep
    next =>
      rw [← Option.some.inj hstep]
      exact (h.setRemote (.reset ..)).advance htask hrunning rfl
    next =>
      rw [← Option.some.inj hstep]
      exact h.advance htask hrunning rfl
  | tryAdmit i draining =>
    obtain ⟨task, htask, hstep⟩ := bind_eq_some_iff.mp hstep
    split at hstep
    next clientKey hstage =>
      have hrunning : task.stage.running = true := by
        rw [hstage]
        rfl
      split at hstep
      next hdraining =>
        rw [← Option.some.inj hstep]
        exact h.giveUp htask hrunning fun client habout =>
          hguard hdraining client ⟨task, htask, hrunning, habout⟩
      next =>
        rw [← Option.some.inj hstep]
        have hadmitted : (s.moveTo i (.admitted clientKey s.nextRequestId)).Tracked := h.advance htask hrunning rfl
        exact hadmitted.write (.refl _) rfl rfl (fun _ hrecovering => hrecovering) fun _ hclose => hclose
    next => cases hstep
  | enterInitialize i uuidLike buildOk =>
    obtain ⟨task, htask, hstep⟩ := bind_eq_some_iff.mp hstep
    split at hstep
    next clientKey initializeId hstage =>
      rw [← Option.some.inj hstep]
      exact h.enterInitialize htask hstage hguard
    next => cases hstep
  | sendInitialize i =>
    obtain ⟨task, htask, hstep⟩ := bind_eq_some_iff.mp hstep
    split at hstep
    next clientKey initializeId hstage =>
      have hrunning : task.stage.running = true := by
        rw [hstage]
        rfl
      split at hstep
      next =>
        rw [← Option.some.inj hstep]
        exact h.advance htask hrunning rfl
      next hclosed =>
        rw [← Option.some.inj hstep]
        have hkeys : KeepsKeys s.remote (removePending s.remote task.connectionEpoch clientKey (toString initializeId)) :=
          .updateClient ..
        refine (h.setRemote hkeys).giveUp htask hrunning ?_
        intro client habout hrecovering
        have hlive : s.Live client.1 := ⟨hkeys.connectionExists hrecovering.1.1, hrecovering.1.2⟩
        rw [habout.1] at hclosed
        exact absurd (h.canSend hlive) hclosed
    next => cases hstep
  | waitReady i =>
    obtain ⟨task, htask, hstep⟩ := bind_eq_some_iff.mp hstep
    dsimp only at hstep
    obtain ⟨hready, hstep⟩ := ite_none_right_eq_some.mp hstep
    rw [← Option.some.inj hstep]
    exact h.advance htask (by rw [hready.1]; rfl) rfl
  | finish i =>
    obtain ⟨task, htask, hstep⟩ := bind_eq_some_iff.mp hstep
    obtain ⟨hstage, hstep⟩ := ite_none_right_eq_some.mp hstep
    dsimp only at hstep
    split at hstep
    next =>
      rw [← Option.some.inj hstep]
      exact h.finish htask hstage
    next hgone =>
      rw [← Option.some.inj hstep]
      refine h.giveUp htask (by rw [hstage]; rfl) ?_
      intro client habout hrecovering
      obtain ⟨hepoch, hexists, hkey⟩ := habout
      obtain ⟨connection, hlookup, _⟩ := exists_of_connectionExists hexists
      refine absurd ⟨?_, ?_⟩ hgone
      · rw [hepoch]
        exact hexists
      · have hpresent := hrecovering.2.1
        unfold clientAt at hpresent
        rw [hepoch, hkey, clientStateForConnectionLocked, hlookup, bind_some]
        rw [hlookup, bind_some] at hpresent
        have hplace := h.onConnection hlookup task.clientKey
        rw [hkey] at hplace
        rw [hplace]
        exact hpresent
  | forceReconnect i =>
    obtain ⟨task, htask, hstep⟩ := bind_eq_some_iff.mp hstep
    split at hstep
    next reason hstage =>
      have hrunning : task.stage.running = true := by
        rw [hstage]
        rfl
      split at hstep
      next =>
        rw [← Option.some.inj hstep]
        have hclosed : Tracked { s with closes := s.closes ++ [(task.connectionEpoch, reason)] } := by
          refine h.write (.refl _) rfl rfl (fun _ hrecovering => hrecovering) ?_
          intro client hclose
          obtain ⟨close, hmem, heq⟩ := hclose
          exact ⟨close, List.mem_append_left _ hmem, heq⟩
        refine hclosed.giveUp htask hrunning ?_
        intro client habout _
        exact ⟨_, List.mem_append_right _ List.mem_cons_self, habout.1⟩
      next hclosed =>
        rw [← Option.some.inj hstep]
        refine h.giveUp htask hrunning ?_
        intro client habout hrecovering
        rw [habout.1] at hclosed
        exact absurd (h.canSend hrecovering.1) hclosed
    next => cases hstep
  | resubscribed i =>
    obtain ⟨task, htask, hstep⟩ := bind_eq_some_iff.mp hstep
    obtain ⟨hstage, hstep⟩ := ite_none_right_eq_some.mp hstep
    rw [← Option.some.inj hstep]
    refine h.moveTo htask (fun hrunning => ?_) (.inr fun client hrecovering => ?_)
    · cases hrunning
    · rw [hstage] at hrecovering
      cases hrecovering
  | initializeResult connectionEpoch clientKey userAgent clientId streamId =>
    have hhandled := h.handleInitializeResult hguard
    rw [← Option.some.inj hstep]
    exact hhandled
  | initializedNotification connectionEpoch clientKey =>
    have hmarked := (h.clearRecovery connectionEpoch clientKey).markInitialized connectionEpoch clientKey
    rw [clearRecovery_remote] at hmarked
    rw [← Option.some.inj hstep]
    exact hmarked
  | writeClient connectionEpoch clientKey client =>
    obtain ⟨connection, hlookup, hstep⟩ := bind_eq_some_iff.mp hstep
    rw [← Option.some.inj hstep]
    exact h.setRemote (.setClient hlookup _ _)
  | connect sourceKind uuidLike =>
    rw [← Option.some.inj hstep]
    exact h.openConnection sourceKind uuidLike
  | socketEnds connectionEpoch =>
    rw [← Option.some.inj hstep]
    refine h.write (.refl _) rfl rfl ?_ fun _ hclose => hclose
    intro client hrecovering
    obtain ⟨hlive, hrest⟩ := hrecovering
    exact ⟨⟨hlive.1, fun hmem => hlive.2 (List.mem_append_left _ hmem)⟩, hrest⟩
  | cleanupConnection connectionEpoch =>
    rw [← Option.some.inj hstep]
    have hkeys : KeepsKeys s.remote
        (pruneInactiveRemoteConnectionsLocked ⟨s.remote.connections.erase connectionEpoch⟩) :=
      (KeepsKeys.erase s.remote connectionEpoch).trans (.retain _ _)
    exact h.setRemote hkeys

theorem Tracked.dispensable (htasks : t.tasks = (s.moveTo i .ended).tasks)
    (hcloses : ∀ client, t.CloseQueued client → s.CloseQueued client)
    (hrecovering : ∀ client, s.Recovering client → t.Recovering client)
    (habout : ∀ task client, t.About task client → s.About task client) (hsound : t.Sound) : s.Dispensable i := by
  intro client hruns hraised
  rcases hsound.neverStuck client (hrecovering client hraised) with hclose | ⟨j, moved, hmoved, hstage, hclient⟩
  · exact hcloses client hclose
  · rw [htasks] at hmoved
    obtain ⟨task, htask, heq⟩ := moveTo_tasks.mp hmoved
    by_cases hij : i = j
    · rw [if_pos hij] at heq
      rw [heq] at hstage
      cases hstage
    · rw [if_neg hij] at heq
      rw [heq] at hstage hclient
      have hrunning : task.stage.running = true := by
        exact (Bool.and_eq_true_iff.mp hstage).2
      exact absurd (h.sound.single i j client hruns ⟨task, htask, hrunning, habout task client hclient⟩) hij

omit h in
theorem Recovering.setClient {client : Nat × String}
    (h : s.Recovering client) (hlookup : connectionForEpochLocked s.remote connectionEpoch = some connection)
    (key : String) (written : PendingClient) :
    (s.setRemote (setConnection s.remote connectionEpoch (MochiPort.setClient connection key written))).Recovering
      client := by
  obtain ⟨hlive, hpresent, hflag⟩ := h
  refine ⟨⟨?_, hlive.2⟩, clientAt_setClient hlookup key written hpresent, ?_⟩
  · exact (exists_setClient hlookup key written client.1).trans hlive.1
  · change (s.fieldsAt client).recoveryStartedAtMs.isSome = true
    rw [fieldsAt, if_pos hpresent]
    exact hflag

theorem Tracked.tryAdmit_needed (hstep : s.step (.tryAdmit i true) = some t) (hsound : t.Sound) : s.Dispensable i := by
  obtain ⟨task, htask, hstep⟩ := bind_eq_some_iff.mp hstep
  split at hstep
  next =>
    rw [← Option.some.inj hstep] at hsound
    exact h.dispensable rfl (fun _ hclose => hclose) (fun _ hraised => hraised) (fun _ _ hclient => hclient) hsound
  next => cases hstep

theorem Tracked.enterInitialize_needed {uuidLike : String}
    (hstep : s.step (.enterInitialize i uuidLike false) = some t) (hsound : t.Sound) : s.Dispensable i := by
  obtain ⟨task, htask, hstep⟩ := bind_eq_some_iff.mp hstep
  split at hstep
  next clientKey initializeId hstage =>
    dsimp only at hstep
    rw [Bool.and_false, if_neg Bool.false_ne_true] at hstep
    rw [← Option.some.inj hstep] at hsound
    have hkeys : KeepsKeys s.remote
        (sendInitializeLocked s.remote task.connectionEpoch clientKey uuidLike initializeId false) := .sendInitialize ..
    intro client hruns hraised
    obtain ⟨other, hother, _, habout⟩ := hruns
    rw [htask] at hother
    cases hother
    have hlookup : ∃ connection, connectionForEpochLocked s.remote task.connectionEpoch = some connection := by
      obtain ⟨connection, hlookup, _⟩ := exists_of_connectionExists habout.2.1
      rw [← habout.1] at hlookup
      exact ⟨connection, hlookup⟩
    obtain ⟨connection, hlookup⟩ := hlookup
    obtain ⟨key, written, hwritten⟩ := sendInitializeLocked_eq clientKey uuidLike initializeId false hlookup
    rw [hwritten] at hsound hkeys
    refine h.dispensable (t := (s.setRemote _).moveTo i .ended) rfl (fun _ hclose => hclose) ?_ ?_ hsound client
      ⟨task, htask, ?_, habout⟩ hraised
    · intro other hother
      exact hother.setClient hlookup key written
    · intro other client hclient
      obtain ⟨hepoch, hexists, hkey⟩ := hclient
      exact ⟨hepoch, hkeys.connectionExists hexists, (hkeys.resolve hexists other.clientKey).symm.trans hkey⟩
    · rw [hstage]
      rfl
  next => cases hstep

theorem Tracked.startRecovery_needed {nowMs : Nat}
    (hsound : (s.startRecovery connectionEpoch clientKey clientId streamId uuidLike nowMs).Sound) :
    s.Recoverable (.startRecovery connectionEpoch clientKey clientId streamId uuidLike nowMs) := by
  intro hmay i hruns
  obtain ⟨task, htask, hstage, hepoch, hexists, hkey⟩ := hruns
  obtain ⟨connection, hlookup, hconnected⟩ := exists_of_connectionExists hexists
  have hkeys : KeepsKeys s.remote (startRemoteControlClientRecovery s.remote connectionEpoch clientKey uuidLike) :=
    .startRecovery ..
  obtain ⟨client, hstarted⟩ := h.startRecoveryLocked hlookup hconnected clientKey uuidLike
  have hresolved := h.resolve_resolve hlookup clientKey
  unfold RecoverySystem.startRecovery at hsound
  rw [hlookup] at hsound
  dsimp only at hsound
  rw [hconnected, Bool.not_true, if_neg Bool.false_ne_true, if_pos hmay] at hsound
  generalize startRemoteControlClientRecovery s.remote connectionEpoch clientKey uuidLike = remote at hkeys hstarted hsound
  generalize resolveRemoteClientKeyForConnectionLocked s.remote connectionEpoch clientKey = resolved
    at hresolved hkey hstarted hsound
  have hlive : connectionExistsLocked remote connectionEpoch = true := by
    rw [hstarted, exists_setClient hlookup]
    exact hexists
  have hlt := (List.getElem?_eq_some_iff.mp htask).1
  have hsame := hsound.single i s.tasks.length (connectionEpoch, resolved)
    ⟨task, (List.getElem?_append_left hlt).trans htask, hstage, hepoch, hlive,
      (hkeys.resolve hlive task.clientKey).trans hkey⟩
    ⟨⟨connectionEpoch, resolved, .starting⟩, List.getElem?_concat_length, rfl, rfl, hlive,
      (hkeys.resolve hlive resolved).trans hresolved⟩
  omega

omit h in
theorem not_about_displaced {m : RecoverySystem} (hlookup : connectionForEpochLocked m.remote connectionEpoch = some connection)
    {sourceKind : RemoteControlSourceKind} (hdisplaced : sourceDefaultClientKey sourceKind ≠ connection.defaultClientKey)
    (task : RecoveryTask) : ¬m.About task (connectionEpoch, sourceDefaultClientKey sourceKind) := by
  intro habout
  obtain ⟨_, _, hkey⟩ := habout
  by_cases hdefault : StandsForDefault (normalizeRemoteClientKey task.clientKey)
  · rw [resolve_default hlookup hdefault] at hkey
    exact hdisplaced hkey.symm
  · rw [resolve_own hdefault] at hkey
    rw [hkey] at hdefault
    exact hdefault (standsForDefault_source sourceKind)

theorem Tracked.initializeResult_needed {clientKey userAgent : Option String} {clientId streamId : String}
    (hsound : (s.handleInitializeResult connectionEpoch clientKey userAgent clientId streamId).Sound) :
    s.Recoverable (.initializeResult connectionEpoch clientKey userAgent clientId streamId) := by
  intro oldClientKey connection hkey hlookup hne hmoves hrecovering
  obtain ⟨requested, rfl, rfl⟩ := map_eq_some_iff.mp hkey
  obtain ⟨sourceKind, hsource⟩ := h.sourced connectionEpoch connection hlookup
  obtain ⟨recorded, hrecorded, hclients, hdefault⟩ := @lookup_recorded _ _ _ hlookup userAgent
  unfold RecoverySystem.handleInitializeResult at hsound
  dsimp only at hsound
  rw [← migrates_congr hclients] at hmoves
  rw [← hdefault] at hne
  generalize hnewSourceKind : (MochiPort.recordSourceKind s.remote connectionEpoch userAgent).2 = newSourceKind at hmoves hsound
  rw [migrate_key hrecorded hmoves] at hsound
  obtain ⟨client, hmoved⟩ := @migrate_clearRecovery
    { s with remote := (MochiPort.recordSourceKind s.remote connectionEpoch userAgent).1 } _ _ _ _ _ _ hrecorded hmoves
  have hremote := congrArg RecoverySystem.remote hmoved
  rw [clearRecovery_remote] at hremote
  rw [hmoved, hremote] at hsound
  -- the key of the default client is neither the old nor the new one
  obtain ⟨_, _, _, hfree, _⟩ := migrates_iff.mp hmoves
  have hpresent := hrecovering.2.1
  rw [← @clientAt_recordSourceKind _ connectionEpoch userAgent] at hpresent
  have hplace : (recorded.clients.lookup recorded.defaultClientKey).isSome = true := by
    unfold clientAt at hpresent
    rw [hrecorded, bind_some, ← hdefault] at hpresent
    exact hpresent
  have hnew : recorded.defaultClientKey ≠ sourceDefaultClientKey newSourceKind := by
    intro heq
    rw [heq, hfree] at hplace
    cases hplace
  have hold : recorded.defaultClientKey ≠ normalizeRemoteClientKey requested := hne.symm
  have hexists := hrecovering.1.1
  rw [← exists_recordSourceKind s.remote connectionEpoch userAgent, connectionExistsLocked, hrecorded,
    any_some] at hexists
  rw [← hdefault] at hrecovering ⊢
  generalize (MochiPort.recordSourceKind s.remote connectionEpoch userAgent).1 = remote at hrecorded hsound
  have hconnection : connectionForEpochLocked (setConnection remote connectionEpoch (movedConnection recorded
      (normalizeRemoteClientKey requested) (sourceDefaultClientKey newSourceKind) client)) connectionEpoch =
      some (movedConnection recorded (normalizeRemoteClientKey requested) (sourceDefaultClientKey newSourceKind)
        client) := by
    rw [lookup_setConnection, if_pos rfl]
  generalize hafter : setConnection remote connectionEpoch (movedConnection recorded
    (normalizeRemoteClientKey requested) (sourceDefaultClientKey newSourceKind) client) = after at hconnection hsound
  have hkeys : KeepsKeys after (MochiPort.markInitialized after connectionEpoch (sourceDefaultClientKey newSourceKind)) :=
    .updateClient ..
  have hstill := hsound.neverStuck (connectionEpoch, recorded.defaultClientKey) (by
    refine ⟨⟨?_, hrecovering.1.2⟩, ?_, ?_⟩
    · refine (exists_updateClient ..).trans ?_
      rw [connectionExistsLocked, hconnection]
      exact hexists
    · refine (clientAt_updateClient ..).trans ?_
      unfold clientAt
      rw [hconnection, bind_some]
      unfold movedConnection
      rw [Table.lookup_insert_eq, if_neg hnew, Table.lookup_erase_eq, if_neg hold]
      exact hplace
    · unfold setFields
      dsimp only
      rw [Function.update_of_ne fun heq => hnew (congrArg Prod.snd heq)]
      exact hrecovering.2.2)
  rcases hstill with hclose | ⟨i, task, _, _, habout⟩
  · exact hclose
  · obtain ⟨connection', hlookup', _⟩ := exists_of_connectionExists habout.2.1
    obtain ⟨moved, hmovedLookup, hmovedKey, _⟩ := hkeys hlookup'
    have hmovedEq : moved = movedConnection recorded (normalizeRemoteClientKey requested)
        (sourceDefaultClientKey newSourceKind) client := by
      rw [hconnection] at hmovedLookup
      exact (Option.some.inj hmovedLookup).symm
    rw [hdefault, hsource] at habout
    refine absurd habout (not_about_displaced hlookup' ?_ task)
    rw [hmovedKey, hmovedEq, ← hsource, ← hdefault]
    exact hnew

end

/-- Recoveries stay sound exactly when all steps of the run are recoverable. -/
theorem recoveries_sound_iff {steps : List RecoveryStep} (hrun : Runs.run step start steps = some t) :
    (∀ done rest reached, steps = done ++ rest → Runs.run step start done = some reached → reached.Sound) ↔
      Runs.Meets step Recoverable start steps := by
  refine Runs.forall_prefix_iff_meets Tracked (fun _ htracked => htracked.sound)
    (fun _ _ _ htracked hguard hstep => step_tracked htracked hguard hstep) ?_ start_tracked hrun
  intro s a t htracked hstep hsound
  cases a with
  | startRecovery connectionEpoch clientKey clientId streamId uuidLike nowMs =>
    rw [← Option.some.inj hstep] at hsound
    exact htracked.startRecovery_needed hsound
  | tryAdmit i draining =>
    intro hdraining
    rw [hdraining] at hstep
    exact htracked.tryAdmit_needed hstep hsound
  | enterInitialize i uuidLike buildOk =>
    intro hfails
    rw [hfails] at hstep
    exact htracked.enterInitialize_needed hstep hsound
  | initializeResult connectionEpoch clientKey userAgent clientId streamId =>
    rw [← Option.some.inj hstep] at hsound
    exact htracked.initializeResult_needed hsound
  | _ => trivial

/-- A recovery whose `initialize` is refused because the daemon is draining. -/
def refusedRecovery : List RecoveryStep :=
  [.connect .codexApp "uuid", .startRecovery 1 "default" "mochiport-bridge" "uuid" "" 5, .spawn 0, .reset 0 "",
    .tryAdmit 0 true]

theorem recoveries_sound_iff_refusedRecovery :
    (∀ done rest reached, refusedRecovery = done ++ rest → Runs.run step start done = some reached →
      reached.Sound) ↔ Runs.Meets step Recoverable start refusedRecovery := by
  have hrun : (Runs.run step start refusedRecovery).isSome = true := by decide +kernel
  obtain ⟨t, ht⟩ := isSome_iff_exists.mp hrun
  exact recoveries_sound_iff ht

theorem refused_recovery_stuck :
    ¬∀ (steps : List RecoveryStep) (t : RecoverySystem), Runs.run step start steps = some t → t.Sound := by
  intro h
  have hend : (Runs.run step start refusedRecovery).any (fun t => connectionExistsLocked t.remote 1 &&
      (clientAt t.remote (1, "default:codex_app")).isSome &&
      (t.recovery (1, "default:codex_app")).recoveryStartedAtMs.isSome && t.ended = [] && t.closes = [] &&
      t.tasks = [⟨1, "default:codex_app", .ended⟩]) = true := by decide +kernel
  obtain ⟨t, ht, hstate⟩ := (any_eq_true ..).mp hend
  simp only [Bool.and_eq_true, decide_eq_true_eq] at hstate
  obtain ⟨⟨⟨⟨⟨hexists, hpresent⟩, hflag⟩, hended⟩, hcloses⟩, htasks⟩ := hstate
  have hrecovering : t.Recovering (1, "default:codex_app") := by
    refine ⟨⟨hexists, ?_⟩, hpresent, hflag⟩
    rw [hended]
    exact List.not_mem_nil
  rcases (h refusedRecovery t ht).neverStuck _ hrecovering with ⟨close, hmem, _⟩ | ⟨i, task, htask, hstage, _⟩
  · rw [hcloses] at hmem
    cases hmem
  · have hmem := List.mem_of_getElem? htask
    rw [htasks, List.mem_singleton] at hmem
    rw [hmem] at hstage
    cases hstage

end RecoverySystem

end MochiPort
