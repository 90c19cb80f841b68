import MochiPort.InitializeCalls

namespace MochiPort

open RequestSystem Table

/-- A client key that the connections keep as it is. -/
def SettledKey (clientKey : String) : Prop :=
  normalizeRemoteClientKey clientKey = clientKey ∧ clientKey ≠ defaultRemoteClientKey

theorem normalizeRemoteClientKey_idem (clientKey : String) :
    normalizeRemoteClientKey (normalizeRemoteClientKey clientKey) = normalizeRemoteClientKey clientKey := by
  unfold normalizeRemoteClientKey
  by_cases h : RustText.trim clientKey = ""
  · rw [if_pos h]
    decide +kernel
  · rw [if_neg h, RustText.trim_trim, if_neg h]

theorem settledKey_sourceDefault (sourceKind : RemoteControlSourceKind) :
    SettledKey (sourceDefaultClientKey sourceKind) := by
  constructor
  · cases sourceKind <;> decide +kernel
  · cases sourceKind <;> decide +kernel

theorem SettledKey.onConnection {clientKey : String} (h : SettledKey clientKey) (connection : PendingConnection) :
    clientKeyOnConnection connection clientKey = clientKey := by
  have htrim : RustText.trim clientKey ≠ "" := by
    intro hempty
    have hnormal := h.1
    simp only [normalizeRemoteClientKey, hempty, if_true] at hnormal
    exact h.2 hnormal.symm
  have hneither : ¬(RustText.trim clientKey = "" ∨ clientKey = defaultRemoteClientKey) :=
    fun hor => hor.elim htrim h.2
  rw [clientKeyOnConnection, if_neg hneither]
  exact h.1

variable {connection : PendingConnection} {connectionEpoch : Nat} {remote : PendingRemote}

theorem resolved_settled (h : connectionForEpochLocked remote connectionEpoch = some connection)
    (hdefault : SettledKey connection.defaultClientKey) (clientKey : String) :
    SettledKey (resolveRemoteClientKeyForConnectionLocked remote connectionEpoch clientKey) := by
  unfold resolveRemoteClientKeyForConnectionLocked
  dsimp only
  split
  next =>
    rw [defaultClientKeyForConnectionLocked, h]
    exact hdefault
  next hkey =>
    refine ⟨normalizeRemoteClientKey_idem clientKey, ?_⟩
    intro heq
    exact hkey (.inl heq)

theorem exists_of_connectionExists (h : connectionExistsLocked remote connectionEpoch = true) :
    ∃ connection, connectionForEpochLocked remote connectionEpoch = some connection ∧
      connection.connected = true := by
  unfold connectionExistsLocked at h
  cases hconnection : connectionForEpochLocked remote connectionEpoch with
  | none => simp [hconnection] at h
  | some connection =>
    rw [hconnection, Option.any_some] at h
    exact ⟨connection, rfl, h⟩

theorem mem_pendingInitializes {clientKey requestKey : String} :
    requestKey ∈ pendingInitializes remote connectionEpoch clientKey ↔
      ∃ pending, entryAt remote connectionEpoch clientKey requestKey = some pending ∧
        pending.method = "initialize" := by
  unfold pendingInitializes entryAt
  cases (connectionForEpochLocked remote connectionEpoch).bind (·.clients.lookup clientKey) with
  | none => simp
  | some client =>
    simp only [List.mem_map, List.mem_filter, decide_eq_true_eq, Option.bind_some, lookup_eq_some_iff]
    constructor
    · intro h
      obtain ⟨⟨key, pending⟩, ⟨hm, hmethod⟩, hkey⟩ := h
      subst hkey
      exact ⟨pending, hm, hmethod⟩
    · intro h
      obtain ⟨pending, hm, hmethod⟩ := h
      exact ⟨⟨requestKey, pending⟩, ⟨hm, hmethod⟩, rfl⟩

theorem nodup_pendingInitializes (remote : PendingRemote) (connectionEpoch : Nat) (clientKey : String) :
    (pendingInitializes remote connectionEpoch clientKey).Nodup := by
  unfold pendingInitializes
  cases (connectionForEpochLocked remote connectionEpoch).bind (·.clients.lookup clientKey) with
  | none => exact List.nodup_nil
  | some client =>
    have hsub : (client.pending.entries.filter fun entry => entry.2.method = "initialize").Sublist
        client.pending.entries := List.filter_sublist
    exact (hsub.map Sigma.fst).nodup client.pending.nodupKeys

theorem Inherits.pendingInitializes_length {remote remote' : PendingRemote} (h : Inherits remote remote')
    (hsingle : ∀ connectionEpoch clientKey, (pendingInitializes remote connectionEpoch clientKey).length ≤ 1)
    (connectionEpoch : Nat) (clientKey : String) :
    (pendingInitializes remote' connectionEpoch clientKey).length ≤ 1 := by
  obtain ⟨oldKey, hinherits⟩ := @h connectionEpoch clientKey
  have hsub : pendingInitializes remote' connectionEpoch clientKey ⊆
      pendingInitializes remote connectionEpoch oldKey := by
    intro requestKey hm
    obtain ⟨pending, he, hmethod⟩ := mem_pendingInitializes.mp hm
    exact mem_pendingInitializes.mpr ⟨pending, hinherits requestKey pending he, hmethod⟩
  have hle := List.Nodup.length_le_of_subset (nodup_pendingInitializes remote' connectionEpoch clientKey) hsub
  have hold := hsingle connectionEpoch oldKey
  omega

/-- Every connection of `remote'` was one of `remote`; its default client may have got a settled key. -/
def Descends (remote remote' : PendingRemote) : Prop :=
  ∀ ⦃connectionEpoch connection'⦄, connectionForEpochLocked remote' connectionEpoch = some connection' →
    ∃ connection, connectionForEpochLocked remote connectionEpoch = some connection ∧
      (SettledKey connection.defaultClientKey → SettledKey connection'.defaultClientKey)

namespace Descends

theorem refl (remote : PendingRemote) : Descends remote remote :=
  fun _ connection h => ⟨connection, h, id⟩

theorem trans {a b c : PendingRemote} (hab : Descends a b) (hbc : Descends b c) : Descends a c := by
  intro connectionEpoch connection'' h
  obtain ⟨connection', h', hkey'⟩ := hbc h
  obtain ⟨connection, h, hkey⟩ := hab h'
  exact ⟨connection, h, fun hsettled => hkey' (hkey hsettled)⟩

theorem setConnection {remote : PendingRemote} {connectionEpoch : Nat} {connection connection' : PendingConnection}
    (h : connectionForEpochLocked remote connectionEpoch = some connection)
    (hkey : SettledKey connection.defaultClientKey → SettledKey connection'.defaultClientKey) :
    Descends remote (MochiPort.setConnection remote connectionEpoch connection') := by
  intro epoch other he
  simp only [connectionForEpochLocked, MochiPort.setConnection, lookup_insert_eq] at he
  split at he
  next hepoch =>
    cases Option.some.inj he
    exact ⟨connection, hepoch ▸ h, hkey⟩
  next => exact ⟨other, he, id⟩

section

variable (remote)

theorem updateClient (connectionEpoch : Nat) (clientKey : String) (f : PendingClient → PendingClient) :
    Descends remote (MochiPort.updateClient remote connectionEpoch clientKey f) := by
  unfold MochiPort.updateClient
  split
  next => exact refl remote
  next connection h =>
    dsimp only
    split
    next => exact refl remote
    next => exact setConnection h id

theorem migrate (connectionEpoch : Nat) (oldClientKey : String)
    (newSourceKind : RemoteControlSourceKind) (clientId streamId : String) :
    Descends remote (migrateSourceDefaultClientKeyLocked remote connectionEpoch oldClientKey
      newSourceKind clientId streamId).1 := by
  unfold migrateSourceDefaultClientKeyLocked
  dsimp only
  split
  next => exact refl remote
  split
  next => exact refl remote
  next connection h =>
    split
    next => exact refl remote
    split
    next => exact refl remote
    split
    next => exact setConnection h fun _ => settledKey_sourceDefault newSourceKind
    next => exact refl remote

theorem handleInitializeResult (connectionEpoch : Nat)
    (clientKey userAgent : Option String) (clientId streamId : String) :
    Descends remote
      (MochiPort.handleInitializeResult remote connectionEpoch clientKey userAgent clientId streamId) := by
  have hrecorded : Descends remote (recordSourceKind remote connectionEpoch userAgent).1 := by
    unfold recordSourceKind
    split
    next => exact refl remote
    next connection h => exact setConnection h id
  cases clientKey with
  | none => exact hrecorded
  | some clientKey => exact hrecorded.trans ((migrate ..).trans (updateClient ..))

theorem reset (connectionEpoch : Nat) (clientKey uuidLike : String) :
    Descends remote (resetRemoteControlClientForKey remote connectionEpoch clientKey uuidLike).1 := by
  unfold resetRemoteControlClientForKey
  split
  next => exact refl remote
  next connection h =>
    split
    next => exact refl remote
    next => exact setConnection h id

theorem startRecovery (connectionEpoch : Nat) (clientKey uuidLike : String) :
    Descends remote (startRemoteControlClientRecovery remote connectionEpoch clientKey uuidLike) := by
  unfold startRemoteControlClientRecovery
  split
  next => exact refl remote
  next connection h =>
    split
    next => exact refl remote
    next => exact setConnection h id

theorem sendInitialize (connectionEpoch : Nat) (clientKey uuidLike : String) (initializeId : Nat) (buildOk : Bool) :
    Descends remote (sendInitializeLocked remote connectionEpoch clientKey uuidLike initializeId buildOk) := by
  unfold sendInitializeLocked
  split
  next => exact refl remote
  next connection h => exact setConnection h id

theorem retain (p : Nat → PendingConnection → Bool) : Descends remote ⟨remote.connections.retain p⟩ := by
  intro connectionEpoch connection h
  exact ⟨connection, of_lookup_retain h, id⟩

theorem erase (epoch : Nat) : Descends remote ⟨remote.connections.erase epoch⟩ := by
  intro connectionEpoch connection h
  exact ⟨connection, (of_lookup_erase h).2, id⟩

end

end Descends

theorem checkInitialize_inherits (remote : PendingRemote) (connectionEpoch : Nat) (clientKey uuidLike : String) :
    Inherits remote (checkInitialize remote connectionEpoch clientKey uuidLike).1 := by
  unfold checkInitialize
  split
  next => exact .refl remote
  next connection h =>
    split
    next => exact .refl remote
    dsimp only
    split
    next => exact .setClient h fun _ _ hp => ensureClientState_pending h hp
    next => exact .setClient h fun _ _ hp => ensureClientState_pending h hp

theorem checkInitialize_descends (remote : PendingRemote) (connectionEpoch : Nat) (clientKey uuidLike : String) :
    Descends remote (checkInitialize remote connectionEpoch clientKey uuidLike).1 := by
  unfold checkInitialize
  split
  next => exact .refl remote
  next connection h =>
    split
    next => exact .refl remote
    dsimp only
    split
    next => exact .setConnection h id
    next => exact .setConnection h id

variable {clientKey uuidLike : String}

theorem checkInitialize_none
    (hnative : ∀ key requestKey pending, entryAt remote connectionEpoch key requestKey = some pending →
      pending.connectionEpoch = connectionEpoch) (hkey : SettledKey clientKey)
    (hdue : (checkInitialize remote connectionEpoch clientKey uuidLike).2 = true) :
    pendingInitializes (checkInitialize remote connectionEpoch clientKey uuidLike).1 connectionEpoch clientKey =
      [] := by
  rw [List.eq_nil_iff_forall_not_mem]
  intro requestKey hm
  obtain ⟨pending, he, hmethod⟩ := mem_pendingInitializes.mp hm
  have hinherits := checkInitialize_inherits remote connectionEpoch clientKey uuidLike
  obtain ⟨oldKey, hold⟩ := @hinherits connectionEpoch clientKey
  have hepoch := hnative oldKey requestKey pending (hold requestKey pending he)
  unfold checkInitialize at hdue he
  split at hdue
  next => cases hdue
  next connection h =>
    split at hdue
    next => cases hdue
    next hconnected =>
      dsimp only at hdue
      split at hdue
      next => cases hdue
      next hskip =>
        rw [h] at he
        dsimp only at he
        rw [if_neg hconnected, if_neg hskip, entryAt_setConnection, if_pos rfl, setClient] at he
        rw [lookup_insert_eq, if_pos (hkey.onConnection connection).symm, Option.bind_some] at he
        have hentry := lookup_eq_some_iff.mp he
        refine hskip (Bool.or_eq_true_iff.mpr (.inl (List.any_eq_true.mpr ⟨_, hentry, ?_⟩)))
        simp [hmethod, hepoch]

theorem reset_none {clientKey : String} (uuidLike : String)
    (h : connectionForEpochLocked remote connectionEpoch = some connection) (hconnected : connection.connected = true)
    (hkey : SettledKey (resolveRemoteClientKeyForConnectionLocked remote connectionEpoch clientKey)) :
    pendingInitializes (resetRemoteControlClientForKey remote connectionEpoch clientKey uuidLike).1 connectionEpoch
      (resolveRemoteClientKeyForConnectionLocked remote connectionEpoch clientKey) = [] := by
  rw [List.eq_nil_iff_forall_not_mem]
  intro requestKey hm
  obtain ⟨pending, he, _⟩ := mem_pendingInitializes.mp hm
  unfold resetRemoteControlClientForKey at he
  rw [h] at he
  dsimp only at he
  rw [hconnected, Bool.not_true, if_neg Bool.false_ne_true, entryAt_setConnection, if_pos rfl, setClient] at he
  rw [hkey.onConnection, lookup_insert_eq, if_pos rfl, Option.bind_some, lookup_empty] at he
  cases he

theorem sendInitialize_entries {initializeId : Nat} {buildOk : Bool}
    (h : connectionForEpochLocked remote connectionEpoch = some connection) (hkey : SettledKey clientKey)
    {epoch : Nat} {key requestKey : String} {pending : PendingRemoteRequest}
    (he : entryAt (sendInitializeLocked remote connectionEpoch clientKey uuidLike initializeId buildOk)
      epoch key requestKey = some pending) :
    (buildOk = true ∧ epoch = connectionEpoch ∧ key = clientKey ∧ requestKey = toString initializeId ∧
      pending = ⟨connectionEpoch, "initialize", none⟩) ∨
    entryAt remote epoch key requestKey = some pending := by
  unfold sendInitializeLocked at he
  rw [h] at he
  dsimp only at he
  rw [hkey.1, hkey.onConnection, entryAt_setConnection] at he
  split at he
  next hepoch =>
    subst epoch
    rw [setClient] at he
    rw [lookup_insert_eq] at he
    split at he
    next hclient =>
      subst key
      have hold : ∀ other,
          (ensureClientState connection clientKey uuidLike).2.pending.lookup requestKey = some other →
          entryAt remote connectionEpoch clientKey requestKey = some other := by
        intro other hother
        have hplace := ensureClientState_pending h hother
        rwa [hkey.onConnection] at hplace
      split at he
      next hbuild =>
        obtain ⟨rfl, rfl⟩ | ⟨_, hlookup⟩ := of_lookup_insert he
        · exact .inl ⟨hbuild, rfl, rfl, rfl, rfl⟩
        · exact .inr (hold pending hlookup)
      next => exact .inr (hold pending he)
    next => exact .inr ((entryAt_of_connection h key requestKey).trans he)
  next => exact .inr he

theorem sendInitialize_inherits {initializeId : Nat} (hkey : SettledKey clientKey) :
    Inherits remote (sendInitializeLocked remote connectionEpoch clientKey uuidLike initializeId false) := by
  cases hconnection : connectionForEpochLocked remote connectionEpoch with
  | none =>
    have hsame : sendInitializeLocked remote connectionEpoch clientKey uuidLike initializeId false = remote := by
      unfold sendInitializeLocked
      rw [hconnection]
    rw [hsame]
    exact .refl remote
  | some connection =>
    intro epoch key
    refine ⟨key, fun requestKey pending he => ?_⟩
    rcases sendInitialize_entries hconnection hkey he with ⟨hbuild, _⟩ | hold
    · cases hbuild
    · exact hold

namespace InitializeSystem

/-- What is pending stands on the connection it was sent on, at most one `initialize` request a client, and a call
that is past its check knows every one that is pending for its client. -/
structure Watched (s : InitializeSystem) : Prop where
  single : ∀ connectionEpoch clientKey, (pendingInitializes s.remote connectionEpoch clientKey).length ≤ 1
  native : ∀ connectionEpoch clientKey requestKey pending,
    entryAt s.remote connectionEpoch clientKey requestKey = some pending → pending.connectionEpoch = connectionEpoch
  opened : ∀ connectionEpoch connection, connectionForEpochLocked s.remote connectionEpoch = some connection →
    connectionEpoch ≤ s.nextConnectionEpoch ∧ SettledKey connection.defaultClientKey
  resolved : ∀ call connectionEpoch clientKey, s.stage call = .resolved connectionEpoch clientKey →
    SettledKey clientKey ∨
      connectionEpoch ≤ s.nextConnectionEpoch ∧ connectionForEpochLocked s.remote connectionEpoch = none
  settled : ∀ call window, (s.stage call).window = some window → SettledKey window.clientKey
  seen : ∀ call window, (s.stage call).window = some window →
    ∀ requestKey ∈ pendingInitializes s.remote window.connectionEpoch window.clientKey, requestKey ∈ window.since

theorem start_watched : start.Watched where
  single connectionEpoch clientKey := by simp [start, pendingInitializes, connectionForEpochLocked]
  native connectionEpoch clientKey requestKey pending h := by simp [start, entryAt, connectionForEpochLocked] at h
  opened connectionEpoch connection h := by simp [start, connectionForEpochLocked] at h
  resolved call connectionEpoch clientKey h := by cases h
  settled call window h := by cases h
  seen call window h := by cases h

variable {clientKey : String} {connectionEpoch : Nat}

variable {newcomers : Nat → String → List String}

theorem resolved_of_noting {stage : InitializeStage} (h : stage.noting newcomers = .resolved connectionEpoch clientKey) :
    stage = .resolved connectionEpoch clientKey := by
  cases stage with
  | idle | resolved | sending | ended => exact h
  | due | admitted | numbered => cases h

theorem window_of_noting {stage : InitializeStage} {window : InitializeWindow} (h : (stage.noting newcomers).window = some window) :
    ∃ since, stage.window = some ⟨window.connectionEpoch, window.clientKey, since⟩ ∧
      window.since = since ++ newcomers window.connectionEpoch window.clientKey := by
  cases stage with
  | idle | resolved | sending | ended => cases h
  | due connectionEpoch clientKey since | admitted connectionEpoch clientKey since
  | numbered connectionEpoch clientKey since initializeId =>
    cases h
    exact ⟨since, rfl, rfl⟩

variable {remote : PendingRemote} {s : InitializeSystem}

theorem Watched.setRemote (hs : s.Watched) {nextEpoch : Nat}
    (hsingle : ∀ connectionEpoch clientKey, (pendingInitializes remote connectionEpoch clientKey).length ≤ 1)
    (hnative : ∀ connectionEpoch clientKey requestKey pending,
      entryAt remote connectionEpoch clientKey requestKey = some pending → pending.connectionEpoch = connectionEpoch)
    (hopened : ∀ connectionEpoch connection, connectionForEpochLocked remote connectionEpoch = some connection →
      connectionEpoch ≤ nextEpoch ∧ SettledKey connection.defaultClientKey) (hle : s.nextConnectionEpoch ≤ nextEpoch)
    (hold : ∀ connectionEpoch ≤ s.nextConnectionEpoch, connectionForEpochLocked s.remote connectionEpoch = none →
      connectionForEpochLocked remote connectionEpoch = none) :
    Watched { s.setRemote remote with nextConnectionEpoch := nextEpoch } where
  single := hsingle
  native := hnative
  opened := hopened
  resolved call connectionEpoch clientKey h := by
    rcases hs.resolved call connectionEpoch clientKey (resolved_of_noting h) with hkey | ⟨hissued, hnone⟩
    · exact .inl hkey
    · exact .inr ⟨hissued.trans hle, hold connectionEpoch hissued hnone⟩
  settled call window h := by
    obtain ⟨since, hwindow, _⟩ := window_of_noting h
    exact (hs.settled call _ hwindow :)
  seen call window h requestKey hm := by
    obtain ⟨since, hwindow, hsince⟩ := window_of_noting h
    rw [hsince]
    by_cases hbefore : requestKey ∈ pendingInitializes s.remote window.connectionEpoch window.clientKey
    · exact List.mem_append_left _ (hs.seen call _ hwindow requestKey hbefore)
    · exact List.mem_append_right _ (List.mem_filter.mpr ⟨hm, by simpa using hbefore⟩)

theorem Watched.opened_of_descends (hs : s.Watched) (h : Descends s.remote remote) {connection : PendingConnection}
    (hc : connectionForEpochLocked remote connectionEpoch = some connection) :
    connectionEpoch ≤ s.nextConnectionEpoch ∧ SettledKey connection.defaultClientKey := by
  obtain ⟨old, hold, hkey⟩ := h hc
  obtain ⟨hissued, hsettled⟩ := hs.opened connectionEpoch old hold
  exact ⟨hissued, hkey hsettled⟩

theorem none_of_descends {remote remote' : PendingRemote} (h : Descends remote remote')
    (hnone : connectionForEpochLocked remote connectionEpoch = none) :
    connectionForEpochLocked remote' connectionEpoch = none := by
  rw [Option.eq_none_iff_forall_ne_some]
  intro connection hc
  obtain ⟨old, hold, _⟩ := h hc
  rw [hnone] at hold
  cases hold

theorem Watched.inherit (hs : s.Watched) (hinherits : Inherits s.remote remote) (hdescends : Descends s.remote remote) :
    (s.setRemote remote).Watched := by
  refine hs.setRemote (hinherits.pendingInitializes_length hs.single) ?_
    (fun _ _ hc => hs.opened_of_descends hdescends hc) le_rfl fun _ _ hnone => none_of_descends hdescends hnone
  intro connectionEpoch clientKey requestKey pending he
  obtain ⟨oldKey, hold⟩ := @hinherits connectionEpoch clientKey
  exact hs.native connectionEpoch oldKey requestKey pending (hold requestKey pending he)

theorem stage_moveTo (s : InitializeSystem) (call : Nat) (next : InitializeStage) (other : Nat) :
    (s.moveTo call next).stage other = if other = call then next else s.stage other :=
  Function.update_apply s.stage call next other

theorem Watched.moveTo (hs : s.Watched) {call : Nat} {next : InitializeStage}
    (hresolved : ∀ connectionEpoch clientKey, next = .resolved connectionEpoch clientKey →
      SettledKey clientKey ∨
        connectionEpoch ≤ s.nextConnectionEpoch ∧ connectionForEpochLocked s.remote connectionEpoch = none)
    (hwindow : ∀ window, next.window = some window → SettledKey window.clientKey ∧
      ∀ requestKey ∈ pendingInitializes s.remote window.connectionEpoch window.clientKey, requestKey ∈ window.since) :
    (s.moveTo call next).Watched where
  single := hs.single
  native := hs.native
  opened := hs.opened
  resolved other connectionEpoch clientKey h := by
    rw [stage_moveTo] at h
    split at h
    next => exact hresolved connectionEpoch clientKey h
    next => exact hs.resolved other connectionEpoch clientKey h
  settled other window h := by
    rw [stage_moveTo] at h
    split at h
    next => exact (hwindow window h).1
    next => exact hs.settled other window h
  seen other window h := by
    rw [stage_moveTo] at h
    split at h
    next => exact (hwindow window h).2
    next => exact hs.seen other window h

theorem Watched.due (hs : s.Watched) {call connectionEpoch : Nat} (hkey : SettledKey clientKey)
    (hnone : pendingInitializes s.remote connectionEpoch clientKey = []) :
    (s.moveTo call (.due connectionEpoch clientKey [])).Watched := by
  refine hs.moveTo (fun _ _ heq => by cases heq) ?_
  intro window hwindow
  cases hwindow
  refine ⟨hkey, ?_⟩
  intro requestKey hm
  rw [hnone] at hm
  cases hm

theorem Watched.leave (hs : s.Watched) {call : Nat} {next : InitializeStage}
    (hresolved : ∀ connectionEpoch clientKey, next ≠ .resolved connectionEpoch clientKey)
    (hwindow : next.window = none) : (s.moveTo call next).Watched := by
  refine hs.moveTo (fun connectionEpoch clientKey h => absurd h (hresolved connectionEpoch clientKey)) ?_
  intro window h
  rw [hwindow] at h
  cases h

/-- An `initialize` request is entered for a client that has none pending. -/
theorem Watched.insert (hs : s.Watched) (uuidLike : String) (initializeId : Nat) (buildOk : Bool)
    (hkey : SettledKey clientKey) (hnone : pendingInitializes s.remote connectionEpoch clientKey = []) :
    (s.setRemote (sendInitializeLocked s.remote connectionEpoch clientKey uuidLike initializeId buildOk)).Watched := by
  have hdescends := Descends.sendInitialize s.remote connectionEpoch clientKey uuidLike initializeId buildOk
  cases hconnection : connectionForEpochLocked s.remote connectionEpoch with
  | none =>
    have hsame : sendInitializeLocked s.remote connectionEpoch clientKey uuidLike initializeId buildOk = s.remote := by
      unfold sendInitializeLocked
      rw [hconnection]
    rw [hsame]
    exact hs.inherit (.refl s.remote) (.refl s.remote)
  | some connection =>
    refine hs.setRemote ?_ ?_ (fun _ _ hc => hs.opened_of_descends hdescends hc) le_rfl
      fun _ _ hnone => none_of_descends hdescends hnone
    · intro epoch key
      by_cases hplace : epoch = connectionEpoch ∧ key = clientKey
      · obtain ⟨rfl, rfl⟩ := hplace
        have hsub : pendingInitializes
            (sendInitializeLocked s.remote epoch key uuidLike initializeId buildOk) epoch key ⊆
              [toString initializeId] := by
          intro requestKey hm
          obtain ⟨pending, he, hmethod⟩ := mem_pendingInitializes.mp hm
          rcases sendInitialize_entries hconnection hkey he with ⟨_, _, _, hnew, _⟩ | hold
          · exact List.mem_singleton.mpr hnew
          · have hbefore := mem_pendingInitializes.mpr ⟨pending, hold, hmethod⟩
            rw [hnone] at hbefore
            cases hbefore
        exact List.Nodup.length_le_of_subset (nodup_pendingInitializes _ _ _) hsub
      · have hsub : pendingInitializes
            (sendInitializeLocked s.remote connectionEpoch clientKey uuidLike initializeId buildOk) epoch key ⊆
              pendingInitializes s.remote epoch key := by
          intro requestKey hm
          obtain ⟨pending, he, hmethod⟩ := mem_pendingInitializes.mp hm
          rcases sendInitialize_entries hconnection hkey he with ⟨_, hepoch, hclient, _⟩ | hold
          · exact absurd ⟨hepoch, hclient⟩ hplace
          · exact mem_pendingInitializes.mpr ⟨pending, hold, hmethod⟩
        exact (List.Nodup.length_le_of_subset (nodup_pendingInitializes _ _ _) hsub).trans (hs.single epoch key)
    · intro epoch key requestKey pending he
      rcases sendInitialize_entries hconnection hkey he with ⟨_, rfl, _, _, rfl⟩ | hold
      · rfl
      · exact hs.native epoch key requestKey pending hold

theorem Watched.connect (hs : s.Watched) (sourceKind : RemoteControlSourceKind) (uuidLike : String) :
    Watched { s.setRemote (pruneInactiveRemoteConnectionsLocked
      (setConnection s.remote (s.nextConnectionEpoch + 1) (openConnection sourceKind uuidLike))) with
      nextConnectionEpoch := s.nextConnectionEpoch + 1 } := by
  let opened := setConnection s.remote (s.nextConnectionEpoch + 1) (openConnection sourceKind uuidLike)
  have hopened : ∀ epoch connection,
      connectionForEpochLocked (pruneInactiveRemoteConnectionsLocked opened) epoch = some connection →
      epoch = s.nextConnectionEpoch + 1 ∧ connection = openConnection sourceKind uuidLike ∨
        connectionForEpochLocked s.remote epoch = some connection := by
    intro epoch connection hc
    rcases of_lookup_insert (of_lookup_retain hc) with hnew | ⟨_, hold⟩
    · exact .inl hnew
    · exact .inr hold
  have hinherits : Inherits s.remote (pruneInactiveRemoteConnectionsLocked opened) :=
    (connect_inherits ..).trans (retain_inherits ..)
  refine hs.setRemote (hinherits.pendingInitializes_length hs.single) ?_ ?_ (Nat.le_succ _) ?_
  · intro epoch key requestKey pending he
    obtain ⟨oldKey, hold⟩ := @hinherits epoch key
    exact hs.native epoch oldKey requestKey pending (hold requestKey pending he)
  · intro epoch connection hc
    rcases hopened epoch connection hc with ⟨rfl, rfl⟩ | hold
    · exact ⟨le_rfl, settledKey_sourceDefault sourceKind⟩
    · obtain ⟨hissued, hkey⟩ := hs.opened epoch connection hold
      exact ⟨Nat.le_succ_of_le hissued, hkey⟩
  · intro epoch hissued hnone
    rw [Option.eq_none_iff_forall_ne_some]
    intro connection hc
    rcases hopened epoch connection hc with ⟨hepoch, _⟩ | hold
    · omega
    · rw [hnone] at hold
      cases hold

theorem step_watched {s t : InitializeSystem} {a : InitializeStep} (hs : s.Watched) (hg : s.Undisturbed a)
    (h : s.step a = some t) : t.Watched := by
  cases a with
  | resolve call connectionEpoch clientKey =>
    simp only [step] at h
    split at h
    next hidle =>
      cases h
      refine hs.moveTo ?_ fun window hwindow => by cases hwindow
      intro epoch key hstage
      cases hstage
      cases hconnection : connectionForEpochLocked s.remote connectionEpoch with
      | none => exact .inr ⟨hidle.2, rfl⟩
      | some connection =>
        exact .inl (resolved_settled hconnection (hs.opened connectionEpoch connection hconnection).2 clientKey)
    next => cases h
  | check call uuidLike =>
    simp only [step] at h
    split at h
    next connectionEpoch clientKey hstage =>
      cases h
      have hnext := hs.inherit (checkInitialize_inherits s.remote connectionEpoch clientKey uuidLike)
        (checkInitialize_descends s.remote connectionEpoch clientKey uuidLike)
      split
      next hdue =>
        rcases hs.resolved call connectionEpoch clientKey hstage with hkey | ⟨_, hnone⟩
        · exact hnext.due hkey (checkInitialize_none (hs.native connectionEpoch) hkey hdue)
        · simp [checkInitialize, hnone] at hdue
      next => exact hnext.leave (fun _ _ heq => by cases heq) rfl
    next => cases h
  | reset call connectionEpoch clientKey uuidLike =>
    simp only [step] at h
    split at h
    next =>
      cases h
      have hnext := hs.inherit (reset_inherits s.remote connectionEpoch clientKey uuidLike)
        (.reset s.remote connectionEpoch clientKey uuidLike)
      split
      next hexists =>
        obtain ⟨connection, hconnection, hconnected⟩ := exists_of_connectionExists hexists
        have hkey := resolved_settled hconnection (hs.opened connectionEpoch connection hconnection).2 clientKey
        exact hnext.due hkey (reset_none uuidLike hconnection hconnected hkey)
      next => exact hnext.leave (fun _ _ heq => by cases heq) rfl
    next => cases h
  | tryAdmit call draining =>
    simp only [step] at h
    split at h
    next connectionEpoch clientKey since hstage =>
      cases h
      cases draining with
      | true => exact hs.leave (fun _ _ heq => by cases heq) rfl
      | false =>
        refine hs.moveTo (fun _ _ heq => by cases heq) ?_
        intro window hwindow
        have hbefore : (s.stage call).window = some window := by rw [hstage]; exact hwindow
        exact ⟨hs.settled call window hbefore, hs.seen call window hbefore⟩
    next => cases h
  | takeRequestId call =>
    simp only [step] at h
    split at h
    next connectionEpoch clientKey since hstage =>
      cases h
      have hs' : Watched { s with nextRequestId := s.nextRequestId + 1 } :=
        ⟨hs.single, hs.native, hs.opened, hs.resolved, hs.settled, hs.seen⟩
      refine hs'.moveTo (fun _ _ heq => by cases heq) ?_
      intro window hwindow
      have hbefore : (s.stage call).window = some window := by rw [hstage]; exact hwindow
      exact ⟨hs.settled call window hbefore, hs.seen call window hbefore⟩
    next => cases h
  | insert call uuidLike buildOk =>
    simp only [step] at h
    split at h
    next connectionEpoch clientKey since initializeId hstage =>
      cases h
      have hwindow : (s.stage call).window = some ⟨connectionEpoch, clientKey, since⟩ := by rw [hstage]; rfl
      have hkey : SettledKey clientKey := (hs.settled call _ hwindow :)
      have hnext : (s.setRemote
          (sendInitializeLocked s.remote connectionEpoch clientKey uuidLike initializeId buildOk)).Watched := by
        cases buildOk with
        | false => exact hs.inherit (sendInitialize_inherits hkey) (.sendInitialize ..)
        | true =>
          refine hs.insert uuidLike initializeId true hkey ?_
          rw [List.eq_nil_iff_forall_not_mem]
          intro requestKey hm
          exact hg rfl _ hwindow requestKey (hs.seen call _ hwindow requestKey hm) hm
      split
      next => exact hnext.leave (fun _ _ heq => by cases heq) rfl
      next => exact hnext.leave (fun _ _ heq => by cases heq) rfl
    next => cases h
  | sent call =>
    simp only [step] at h
    split at h
    next => cases h; exact hs.leave (fun _ _ heq => by cases heq) rfl
    next => cases h
  | sendFailed call =>
    simp only [step] at h
    split at h
    next connectionEpoch clientKey initializeId _ =>
      cases h
      have hnext := hs.inherit
        (removePending_inherits s.remote connectionEpoch clientKey (toString initializeId))
        (.updateClient ..)
      exact hnext.leave (fun _ _ heq => by cases heq) rfl
    next => cases h
  | cancel call =>
    cases h
    exact hs.leave (fun _ _ heq => by cases heq) rfl
  | takeResponse connectionEpoch clientKey requestKey =>
    cases h
    exact hs.inherit (removePending_inherits ..) (.updateClient ..)
  | initializeResult connectionEpoch clientKey userAgent clientId streamId =>
    cases h
    exact hs.inherit (handleInitializeResult_inherits ..) (.handleInitializeResult ..)
  | initializedNotification connectionEpoch clientKey =>
    cases h
    exact hs.inherit (markInitialized_inherits ..) (.updateClient ..)
  | startRecovery connectionEpoch clientKey uuidLike =>
    cases h
    exact hs.inherit (startRecovery_inherits ..) (.startRecovery ..)
  | connect sourceKind uuidLike =>
    cases h
    exact hs.connect sourceKind uuidLike
  | cleanupConnection connectionEpoch =>
    cases h
    exact hs.inherit ((erase_inherits ..).trans (retain_inherits ..)) ((Descends.erase ..).trans (.retain ..))

/-- While no call enters an `initialize` request next to one that came after its check, a client never has two
pending. -/
theorem single_initialize {steps : List InitializeStep} {s : InitializeSystem}
    (hundisturbed : Runs.Meets step Undisturbed start steps) (h : Runs.run step start steps = some s)
    (connectionEpoch : Nat) (clientKey : String) :
    (pendingInitializes s.remote connectionEpoch clientKey).length ≤ 1 := by
  have hs : s.Watched :=
    Runs.run_invariant_of_meets Watched (fun _ _ _ hs hg h => step_watched hs hg h) start_watched hundisturbed h
  exact hs.single connectionEpoch clientKey

/-- A connection is opened and one call initializes its client; a second call finds the request pending. -/
def initializedOnce : List InitializeStep :=
  [.connect .cli "stream", .resolve 0 1 "default", .resolve 1 1 "default", .check 0 "", .tryAdmit 0 false,
    .takeRequestId 0, .insert 0 "" true, .check 1 "", .sent 0]

theorem single_initialize_once : ∃ s, Runs.run step start initializedOnce = some s ∧
    (pendingInitializes s.remote 1 "default:cli").length ≤ 1 := by
  have hrun : (Runs.run step start initializedOnce).isSome := by decide +kernel
  obtain ⟨s, hs⟩ := Option.isSome_iff_exists.mp hrun
  exact ⟨s, hs, single_initialize (by decide +kernel) hs 1 "default:cli"⟩

/-- Both calls look before either enters its request. -/
theorem initialize_twice :
    ¬∀ (steps : List InitializeStep) (s : InitializeSystem), Runs.run step start steps = some s →
      ∀ connectionEpoch clientKey, (pendingInitializes s.remote connectionEpoch clientKey).length ≤ 1 := by
  intro h
  have hrun : ((Runs.run step start
      [.connect .cli "stream", .resolve 0 1 "default", .resolve 1 1 "default", .check 0 "", .check 1 "",
        .tryAdmit 0 false, .tryAdmit 1 false, .takeRequestId 0, .takeRequestId 1, .insert 0 "" true,
        .insert 1 "" true]).map fun s => pendingInitializes s.remote 1 "default:cli") = some ["1", "0"] := by
    decide +kernel
  obtain ⟨s, hs, hpending⟩ := Option.map_eq_some_iff.mp hrun
  have hle := h _ s hs 1 "default:cli"
  rw [hpending] at hle
  exact absurd hle (by decide)

end InitializeSystem

end MochiPort
