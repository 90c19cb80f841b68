import MochiPort.RecoveryTasks

namespace MochiPort

/-- Every connection of `remote'` was one of `remote`, with the same default key, and open to the same extent. -/
def KeepsKeys (remote remote' : PendingRemote) : Prop :=
  ∀ ⦃connectionEpoch connection'⦄, connectionForEpochLocked remote' connectionEpoch = some connection' →
    ∃ connection, connectionForEpochLocked remote connectionEpoch = some connection ∧
      connection'.defaultClientKey = connection.defaultClientKey ∧ connection'.connected = connection.connected ∧
      connection'.outboundTx = connection.outboundTx

namespace KeepsKeys

variable {remote remote' : PendingRemote}

theorem refl (remote : PendingRemote) : KeepsKeys remote remote := fun _ connection h => ⟨connection, h, rfl, rfl, rfl⟩

theorem trans {remote'' : PendingRemote} (h : KeepsKeys remote remote') (h' : KeepsKeys remote' remote'') :
    KeepsKeys remote remote'' := by
  intro connectionEpoch connection'' hlookup
  obtain ⟨connection', hlookup', hkey', hconnected', hopen'⟩ := h' hlookup
  obtain ⟨connection, hold, hkey, hconnected, hopen⟩ := h hlookup'
  exact ⟨connection, hold, hkey'.trans hkey, hconnected'.trans hconnected, hopen'.trans hopen⟩

variable {connectionEpoch : Nat}

theorem setConnection {connection connection' : PendingConnection}
    (h : connectionForEpochLocked remote connectionEpoch = some connection)
    (hkey : connection'.defaultClientKey = connection.defaultClientKey)
    (hconnected : connection'.connected = connection.connected)
    (hopen : connection'.outboundTx = connection.outboundTx) :
    KeepsKeys remote (MochiPort.setConnection remote connectionEpoch connection') := by
  intro epoch other hlookup
  unfold connectionForEpochLocked MochiPort.setConnection at hlookup
  rw [Table.lookup_insert_eq] at hlookup
  split at hlookup
  next hepoch =>
    cases Option.some.inj hlookup
    rw [hepoch]
    exact ⟨connection, h, hkey, hconnected, hopen⟩
  next => exact ⟨other, hlookup, rfl, rfl, rfl⟩

theorem setClient {connection : PendingConnection}
    (h : connectionForEpochLocked remote connectionEpoch = some connection) (clientKey : String)
    (client : PendingClient) :
    KeepsKeys remote (MochiPort.setConnection remote connectionEpoch (MochiPort.setClient connection clientKey client)) :=
  setConnection h rfl rfl rfl

section

variable (remote)

section

variable (connectionEpoch)

theorem updateClient (clientKey : String) (f : PendingClient → PendingClient) :
    KeepsKeys remote (MochiPort.updateClient remote connectionEpoch clientKey f) := by
  unfold MochiPort.updateClient
  split
  next => exact refl remote
  next connection h =>
    dsimp only
    split
    next => exact refl remote
    next => exact setClient h _ _

theorem recordSourceKind (userAgent : Option String) :
    KeepsKeys remote (MochiPort.recordSourceKind remote connectionEpoch userAgent).1 := by
  unfold MochiPort.recordSourceKind
  split
  next => exact refl remote
  next connection h => exact setConnection h rfl rfl rfl

section

variable (clientKey uuidLike : String)

theorem reset : KeepsKeys remote (resetRemoteControlClientForKey remote connectionEpoch clientKey uuidLike).1 := by
  unfold resetRemoteControlClientForKey
  split
  next => exact refl remote
  next connection h =>
    split
    next => exact refl remote
    next => exact setClient h _ _

theorem startRecovery :
    KeepsKeys remote (startRemoteControlClientRecovery remote connectionEpoch clientKey uuidLike) := by
  unfold startRemoteControlClientRecovery
  split
  next => exact refl remote
  next connection h =>
    split
    next => exact refl remote
    next => exact setClient h _ _

theorem sendInitialize (initializeId : Nat) (buildOk : Bool) :
    KeepsKeys remote (sendInitializeLocked remote connectionEpoch clientKey uuidLike initializeId buildOk) := by
  unfold sendInitializeLocked
  split
  next => exact refl remote
  next connection h => exact setClient h _ _

end

end

theorem retain (p : Nat → PendingConnection → Bool) : KeepsKeys remote ⟨remote.connections.retain p⟩ :=
  fun _ connection h => ⟨connection, Table.of_lookup_retain h, rfl, rfl, rfl⟩

theorem erase (connectionEpoch : Nat) : KeepsKeys remote ⟨remote.connections.erase connectionEpoch⟩ :=
  fun _ connection h => ⟨connection, (Table.of_lookup_erase h).2, rfl, rfl, rfl⟩

end

theorem connectionExists (h : KeepsKeys remote remote')
    (hexists : connectionExistsLocked remote' connectionEpoch = true) :
    connectionExistsLocked remote connectionEpoch = true := by
  obtain ⟨connection', hlookup', hconnected'⟩ := exists_of_connectionExists hexists
  obtain ⟨connection, hlookup, _, hconnected, _⟩ := h hlookup'
  rw [connectionExistsLocked, hlookup, Option.any_some, ← hconnected]
  exact hconnected'

theorem resolve (h : KeepsKeys remote remote') (hexists : connectionExistsLocked remote' connectionEpoch = true)
    (clientKey : String) :
    resolveRemoteClientKeyForConnectionLocked remote' connectionEpoch clientKey =
      resolveRemoteClientKeyForConnectionLocked remote connectionEpoch clientKey := by
  obtain ⟨connection', hlookup', _⟩ := exists_of_connectionExists hexists
  obtain ⟨connection, hlookup, hkey, _⟩ := h hlookup'
  have hdefault : defaultClientKeyForConnectionLocked remote' connectionEpoch =
      defaultClientKeyForConnectionLocked remote connectionEpoch := by
    rw [defaultClientKeyForConnectionLocked, defaultClientKeyForConnectionLocked, hlookup, hlookup']
    exact hkey
  rw [resolveRemoteClientKeyForConnectionLocked, resolveRemoteClientKeyForConnectionLocked, hdefault]

end KeepsKeys

theorem clientAt_updateClient (remote : PendingRemote) (connectionEpoch : Nat) (clientKey : String)
    (f : PendingClient → PendingClient) (client : Nat × String) :
    (clientAt (updateClient remote connectionEpoch clientKey f) client).isSome = (clientAt remote client).isSome := by
  unfold updateClient
  split
  next => rfl
  next connection hconnection =>
    dsimp only
    split
    next => rfl
    next old hold =>
      unfold connectionForEpochLocked at hconnection
      unfold clientAt connectionForEpochLocked setConnection
      rw [Table.lookup_insert_eq]
      split
      next hepoch =>
        rw [hepoch, hconnection, Option.bind_some, Option.bind_some, setClient]
        rw [Table.lookup_insert_eq]
        split
        next hkey =>
          rw [hkey, hold]
          rfl
        next => rfl
      next => rfl

theorem clientAt_recordSourceKind {remote : PendingRemote} {connectionEpoch : Nat} {userAgent : Option String}
    (client : Nat × String) : clientAt (recordSourceKind remote connectionEpoch userAgent).1 client = clientAt remote client := by
  unfold recordSourceKind
  split
  next => rfl
  next connection hconnection =>
    unfold clientAt connectionForEpochLocked setConnection
    rw [Table.lookup_insert_eq]
    split
    next hepoch =>
      rw [hepoch]
      unfold connectionForEpochLocked at hconnection
      rw [hconnection]
      rfl
    next => rfl

namespace RecoverySystem

theorem lookup_setConnection (remote : PendingRemote) (connectionEpoch epoch : Nat) (connection : PendingConnection) :
    connectionForEpochLocked (setConnection remote connectionEpoch connection) epoch =
      if epoch = connectionEpoch then some connection else connectionForEpochLocked remote epoch :=
  Table.lookup_insert_eq ..

variable {connection : PendingConnection} {connectionEpoch : Nat} {remote : PendingRemote}

section

variable (hlookup : connectionForEpochLocked remote connectionEpoch = some connection)
include hlookup

theorem exists_setClient (clientKey : String) (client : PendingClient) (epoch : Nat) :
    connectionExistsLocked (setConnection remote connectionEpoch (setClient connection clientKey client)) epoch =
      connectionExistsLocked remote epoch := by
  unfold connectionExistsLocked
  rw [lookup_setConnection]
  split
  next hepoch =>
    rw [hepoch, hlookup]
    rfl
  next => rfl

theorem clientAt_setClient (clientKey : String) (client : PendingClient) {other : Nat × String}
    (h : (clientAt remote other).isSome = true) :
    (clientAt (setConnection remote connectionEpoch (setClient connection clientKey client)) other).isSome = true := by
  unfold clientAt at h ⊢
  rw [lookup_setConnection]
  split
  next hepoch =>
    rw [hepoch, hlookup] at h
    rw [Option.bind_some, setClient, Table.lookup_insert_eq]
    split
    next => rfl
    next => exact h
  next => exact h

end

theorem exists_updateClient (remote : PendingRemote) (connectionEpoch : Nat) (clientKey : String)
    (f : PendingClient → PendingClient) (epoch : Nat) :
    connectionExistsLocked (updateClient remote connectionEpoch clientKey f) epoch =
      connectionExistsLocked remote epoch := by
  unfold updateClient
  split
  next => rfl
  next connection hlookup =>
    dsimp only
    split
    next => rfl
    next => exact exists_setClient hlookup _ _ epoch

theorem sendInitializeLocked_eq (clientKey uuidLike : String) (initializeId : Nat) (buildOk : Bool)
    (hlookup : connectionForEpochLocked remote connectionEpoch = some connection) :
    ∃ key client, sendInitializeLocked remote connectionEpoch clientKey uuidLike initializeId buildOk =
      setConnection remote connectionEpoch (setClient connection key client) := by
  unfold sendInitializeLocked
  rw [hlookup]
  exact ⟨_, _, rfl⟩

/-- A key that stands for the default client, whichever it is. -/
def StandsForDefault (clientKey : String) : Prop :=
  clientKey = defaultRemoteClientKey ∨ (sourceKindFromDefaultClientKey clientKey).isSome = true

theorem standsForDefault_source (sourceKind : RemoteControlSourceKind) :
    StandsForDefault (sourceDefaultClientKey sourceKind) := by
  cases sourceKind <;> exact .inr (by decide +kernel)

theorem normalize_source (sourceKind : RemoteControlSourceKind) :
    normalizeRemoteClientKey (sourceDefaultClientKey sourceKind) = sourceDefaultClientKey sourceKind :=
  (settledKey_sourceDefault sourceKind).1

theorem resolve_default (hlookup : connectionForEpochLocked remote connectionEpoch = some connection)
    {clientKey : String} (hdefault : StandsForDefault (normalizeRemoteClientKey clientKey)) :
    resolveRemoteClientKeyForConnectionLocked remote connectionEpoch clientKey = connection.defaultClientKey := by
  unfold StandsForDefault at hdefault
  unfold resolveRemoteClientKeyForConnectionLocked
  rw [if_pos hdefault, defaultClientKeyForConnectionLocked, hlookup]
  rfl

theorem resolve_own {clientKey : String} (hown : ¬StandsForDefault (normalizeRemoteClientKey clientKey)) :
    resolveRemoteClientKeyForConnectionLocked remote connectionEpoch clientKey = normalizeRemoteClientKey clientKey := by
  exact if_neg hown

/-- The connection after the move of a client to the key of its source. -/
def movedConnection (connection : PendingConnection) (oldClientKey newClientKey : String) (client : PendingClient) :
    PendingConnection :=
  { connection with
    clients := (connection.clients.erase oldClientKey).insert newClientKey client
    defaultClientKey := newClientKey }

variable {newSourceKind : RemoteControlSourceKind} {oldClientKey clientId streamId : String}

theorem migrates_iff :
    migrates connection oldClientKey newSourceKind clientId streamId = true ↔
      newSourceKind ≠ .unknown ∧ isLegacyDefaultClientKey oldClientKey = true ∧
        oldClientKey ≠ sourceDefaultClientKey newSourceKind ∧
        connection.clients.lookup (sourceDefaultClientKey newSourceKind) = none ∧
        ∃ client, connection.clients.lookup oldClientKey = some client ∧ client.clientId = clientId ∧
          client.streamId = streamId := by
  unfold migrates
  rw [Bool.and_eq_true, Bool.and_eq_true, Bool.and_eq_true, Bool.and_eq_true, decide_eq_true_eq, decide_eq_true_eq,
    Option.isNone_iff_eq_none, Option.any_eq_true]
  simp only [Bool.and_eq_true, decide_eq_true_eq, and_assoc]

section

variable (hlookup : connectionForEpochLocked remote connectionEpoch = some connection)
include hlookup

theorem migrate_moved (hmoves : migrates connection (normalizeRemoteClientKey oldClientKey) newSourceKind clientId streamId = true) :
    ∃ client, connection.clients.lookup (normalizeRemoteClientKey oldClientKey) = some client ∧
      migrateSourceDefaultClientKeyLocked remote connectionEpoch oldClientKey newSourceKind clientId streamId =
        (setConnection remote connectionEpoch (movedConnection connection (normalizeRemoteClientKey oldClientKey)
          (sourceDefaultClientKey newSourceKind) client), sourceDefaultClientKey newSourceKind) := by
  obtain ⟨hknown, hlegacy, hother, hfree, client, hclient, hid, hstream⟩ := migrates_iff.mp hmoves
  refine ⟨client, hclient, ?_⟩
  unfold migrateSourceDefaultClientKeyLocked
  have hskip : ¬(newSourceKind = .unknown ∨
      ¬isLegacyDefaultClientKey (normalizeRemoteClientKey oldClientKey) = true ∨
      normalizeRemoteClientKey oldClientKey = sourceDefaultClientKey newSourceKind) := by
    intro hskip
    rcases hskip with hskip | hskip | hskip
    · exact hknown hskip
    · exact hskip hlegacy
    · exact hother hskip
  rw [if_neg hskip, hlookup]
  dsimp only
  rw [hfree, Option.isSome_none, if_neg Bool.false_ne_true, hclient]
  dsimp only
  rw [if_pos ⟨hid, hstream⟩]
  rfl

omit hlookup in
theorem migrate_stays (hstays : ∀ connection, connectionForEpochLocked remote connectionEpoch = some connection →
      migrates connection (normalizeRemoteClientKey oldClientKey) newSourceKind clientId streamId = false) :
    migrateSourceDefaultClientKeyLocked remote connectionEpoch oldClientKey newSourceKind clientId streamId =
      (remote, normalizeRemoteClientKey oldClientKey) := by
  unfold migrateSourceDefaultClientKeyLocked
  dsimp only
  split
  next => rfl
  next hgoes =>
    split
    next => rfl
    next connection hlookup =>
      split
      next => rfl
      next hfree =>
        split
        next => rfl
        next client hclient =>
          split
          next hids =>
            have hmoves : migrates connection (normalizeRemoteClientKey oldClientKey) newSourceKind clientId
                streamId = true := by
              refine migrates_iff.mpr ⟨?_, ?_, ?_, ?_, client, hclient, hids⟩
              · intro hunknown
                exact hgoes (.inl hunknown)
              · by_contra hlegacy
                exact hgoes (.inr (.inl hlegacy))
              · intro hsame
                exact hgoes (.inr (.inr hsame))
              · rw [← Option.isNone_iff_eq_none, ← Option.not_isSome]
                exact Bool.eq_false_iff.mpr hfree ▸ rfl
            rw [hstays connection hlookup] at hmoves
            cases hmoves
          next => rfl

theorem migrate_key (hmoves : migrates connection (normalizeRemoteClientKey oldClientKey) newSourceKind clientId streamId = true) :
    (migrateSourceDefaultClientKeyLocked remote connectionEpoch oldClientKey newSourceKind clientId streamId).2 =
      sourceDefaultClientKey newSourceKind := by
  obtain ⟨client, _, hmigrate⟩ := migrate_moved hlookup hmoves
  rw [hmigrate]

omit hlookup in
theorem exists_recordSourceKind (remote : PendingRemote) (connectionEpoch : Nat) (userAgent : Option String)
    (epoch : Nat) :
    connectionExistsLocked (recordSourceKind remote connectionEpoch userAgent).1 epoch =
      connectionExistsLocked remote epoch := by
  unfold recordSourceKind
  split
  next => rfl
  next connection hlookup =>
    unfold connectionExistsLocked
    rw [lookup_setConnection]
    split
    next hepoch =>
      rw [hepoch, hlookup]
      rfl
    next => rfl

omit hlookup in
theorem lookup_recordSourceKind {userAgent : Option String} {recorded : PendingConnection}
    (h : connectionForEpochLocked (recordSourceKind remote connectionEpoch userAgent).1 connectionEpoch =
      some recorded) :
    ∃ connection, connectionForEpochLocked remote connectionEpoch = some connection ∧
      recorded.clients = connection.clients ∧ recorded.defaultClientKey = connection.defaultClientKey := by
  unfold recordSourceKind at h
  split at h
  next => exact ⟨recorded, h, rfl, rfl⟩
  next connection hlookup =>
    rw [lookup_setConnection, if_pos rfl] at h
    rw [← Option.some.inj h]
    exact ⟨connection, hlookup, rfl, rfl⟩

theorem lookup_recorded {userAgent : Option String} :
    ∃ recorded, connectionForEpochLocked (recordSourceKind remote connectionEpoch userAgent).1 connectionEpoch =
      some recorded ∧ recorded.clients = connection.clients ∧
      recorded.defaultClientKey = connection.defaultClientKey := by
  unfold recordSourceKind
  rw [hlookup]
  rw [lookup_setConnection, if_pos rfl]
  exact ⟨_, rfl, rfl, rfl⟩

end

theorem migrates_congr {connection recorded : PendingConnection} (h : recorded.clients = connection.clients)
    (oldClientKey : String) (newSourceKind : RemoteControlSourceKind) (clientId streamId : String) :
    migrates recorded oldClientKey newSourceKind clientId streamId =
      migrates connection oldClientKey newSourceKind clientId streamId := by
  unfold migrates
  rw [h]

end RecoverySystem

end MochiPort
