import MochiPort.RemoteClients

namespace MochiPort

open Table

/-- What a pending request is removed by. `call` is the caller that waits on its channel and whose
admission permit it holds; an `initialize` request has no caller waiting. -/
structure PendingRemoteRequest where
  connectionEpoch : Nat
  method : String
  call : Option Nat
  deriving DecidableEq

abbrev PendingClient := RemoteControlClientState PendingRemoteRequest

abbrev PendingConnection := RemoteControlServerConnection PendingRemoteRequest

abbrev PendingRemote := RemoteControlInner PendingRemoteRequest

def insertPending (client : PendingClient) (requestKey : String) (pending : PendingRemoteRequest) : PendingClient :=
  { client with pending := client.pending.insert requestKey pending }

def entryAt (remote : PendingRemote) (connectionEpoch : Nat) (clientKey requestKey : String) :
    Option PendingRemoteRequest :=
  ((connectionForEpochLocked remote connectionEpoch).bind (·.clients.lookup clientKey)).bind
    (·.pending.lookup requestKey)

/-- The clients that hold an entry of the call, by epoch and client key. -/
def heldAt (remote : PendingRemote) (call : Nat) : List (Nat × String) :=
  remote.connections.entries.flatMap fun ⟨connectionEpoch, connection⟩ =>
    (connection.clients.entries.filter fun ⟨_, client⟩ =>
      client.pending.entries.any fun ⟨_, pending⟩ => pending.call = some call).map
        fun ⟨clientKey, _⟩ => (connectionEpoch, clientKey)

variable {clientKey : String} {remote : PendingRemote}

theorem mem_heldAt {call connectionEpoch : Nat} :
    (connectionEpoch, clientKey) ∈ heldAt remote call ↔
      ∃ requestKey pending, entryAt remote connectionEpoch clientKey requestKey = some pending ∧
        pending.call = some call := by
  simp only [heldAt, List.mem_flatMap, List.mem_map, List.mem_filter, List.any_eq_true,
    decide_eq_true_eq]
  constructor
  · rintro ⟨⟨epoch, connection⟩, hconnection, ⟨key, client⟩, ⟨hclient, ⟨requestKey, pending⟩, hpending, hcall⟩, he⟩
    obtain ⟨rfl, rfl⟩ := Prod.mk.inj he
    refine ⟨requestKey, pending, ?_, hcall⟩
    simp only [entryAt, connectionForEpochLocked, lookup_eq_some_iff.mpr hconnection,
      Option.bind_some, lookup_eq_some_iff.mpr hclient, lookup_eq_some_iff.mpr hpending]
  · rintro ⟨requestKey, pending, he, hcall⟩
    obtain ⟨client, hclient, hpending⟩ := Option.bind_eq_some_iff.mp he
    obtain ⟨connection, hconnection, hclient⟩ := Option.bind_eq_some_iff.mp hclient
    exact ⟨⟨_, connection⟩, lookup_eq_some_iff.mp hconnection, ⟨_, client⟩,
      ⟨lookup_eq_some_iff.mp hclient, ⟨_, pending⟩, lookup_eq_some_iff.mp hpending, hcall⟩, rfl⟩

variable {connection : PendingConnection}

theorem entryAt_setConnection {epoch connectionEpoch : Nat} {clientKey requestKey : String} :
    entryAt (setConnection remote connectionEpoch connection) epoch clientKey requestKey =
      if epoch = connectionEpoch then
        (connection.clients.lookup clientKey).bind (·.pending.lookup requestKey)
      else entryAt remote epoch clientKey requestKey := by
  simp only [entryAt, connectionForEpochLocked, setConnection, lookup_insert_eq]
  split <;> rfl

variable {connectionEpoch : Nat}

theorem entryAt_of_connection (h : connectionForEpochLocked remote connectionEpoch = some connection)
    (clientKey requestKey : String) :
    entryAt remote connectionEpoch clientKey requestKey =
      (connection.clients.lookup clientKey).bind (·.pending.lookup requestKey) := by
  rw [entryAt, h]
  rfl

/-- Nothing is pending in `remote'` that is not pending on the same connection of `remote`, under
some client. -/
def NoNewEntries (remote remote' : PendingRemote) : Prop :=
  ∀ ⦃connectionEpoch clientKey requestKey pending⦄,
    entryAt remote' connectionEpoch clientKey requestKey = some pending →
    ∃ oldKey, entryAt remote connectionEpoch oldKey requestKey = some pending

/-- Every client of `remote'` has at most the entries of one client of `remote`, on the same connection. -/
def Inherits (remote remote' : PendingRemote) : Prop :=
  ∀ ⦃connectionEpoch clientKey⦄, ∃ oldKey, ∀ requestKey pending,
    entryAt remote' connectionEpoch clientKey requestKey = some pending →
    entryAt remote connectionEpoch oldKey requestKey = some pending

theorem Inherits.noNewEntries {remote remote' : PendingRemote} (h : Inherits remote remote') :
    NoNewEntries remote remote' := by
  intro connectionEpoch clientKey requestKey pending he
  obtain ⟨oldKey, hold⟩ := @h connectionEpoch clientKey
  exact ⟨oldKey, hold requestKey pending he⟩

theorem Inherits.refl (remote : PendingRemote) : Inherits remote remote :=
  fun _ clientKey => ⟨clientKey, fun _ _ h => h⟩

theorem Inherits.trans {a b c : PendingRemote} (hab : Inherits a b) (hbc : Inherits b c) : Inherits a c := by
  intro connectionEpoch clientKey
  obtain ⟨oldKey, hold⟩ := @hbc connectionEpoch clientKey
  obtain ⟨olderKey, holder⟩ := @hab connectionEpoch oldKey
  exact ⟨olderKey, fun requestKey pending h => holder requestKey pending (hold requestKey pending h)⟩

theorem Inherits.setClient {client : PendingClient}
    (h : connectionForEpochLocked remote connectionEpoch = some connection)
    (hpending : ∀ requestKey pending, client.pending.lookup requestKey = some pending →
      entryAt remote connectionEpoch clientKey requestKey = some pending) :
    Inherits remote
      (setConnection remote connectionEpoch (MochiPort.setClient connection clientKey client)) := by
  intro epoch key
  refine ⟨key, fun requestKey pending he => ?_⟩
  rw [entryAt_setConnection] at he
  split at he
  next hepoch =>
    subst epoch
    simp only [MochiPort.setClient, lookup_insert_eq] at he
    split at he
    next hkey => exact hkey ▸ hpending _ _ he
    next => exact (entryAt_of_connection h key requestKey).trans he
  next => exact he

theorem updateClient_inherits {f : RemoteControlClientState PendingRemoteRequest → PendingClient}
    (hf : ∀ client requestKey pending, (f client).pending.lookup requestKey = some pending →
      client.pending.lookup requestKey = some pending) :
    Inherits remote (updateClient remote connectionEpoch clientKey f) := by
  unfold updateClient
  split
  next => exact .refl remote
  next connection h =>
    dsimp only
    split
    next => exact .refl remote
    next client hclient =>
      refine .setClient h fun requestKey pending hp => ?_
      rw [entryAt_of_connection h, hclient]
      exact hf client requestKey pending hp

theorem ensureClientState_pending {clientKey uuidLike requestKey : String} {pending : PendingRemoteRequest}
    (h : connectionForEpochLocked remote connectionEpoch = some connection)
    (hp : (ensureClientState connection clientKey uuidLike).2.pending.lookup requestKey = some pending) :
    entryAt remote connectionEpoch (clientKeyOnConnection connection clientKey) requestKey = some pending := by
  rw [entryAt_of_connection h]
  unfold ensureClientState at hp
  cases hclient : connection.clients.lookup (clientKeyOnConnection connection clientKey) with
  | none => simp [hclient, newClientState] at hp
  | some client => simpa [hclient] using hp

section

variable (remote)

theorem migrate_inherits (connectionEpoch : Nat) (oldClientKey : String)
    (newSourceKind : RemoteControlSourceKind) (clientId streamId : String) :
    Inherits remote (migrateSourceDefaultClientKeyLocked remote connectionEpoch oldClientKey
      newSourceKind clientId streamId).1 := by
  unfold migrateSourceDefaultClientKeyLocked
  dsimp only
  split
  next => exact .refl remote
  split
  next => exact .refl remote
  next connection h =>
    split
    next => exact .refl remote
    split
    next => exact .refl remote
    next oldClient hold =>
      split
      next =>
        intro epoch key
        by_cases hmoved : epoch = connectionEpoch ∧ key = sourceDefaultClientKey newSourceKind
        · obtain ⟨rfl, rfl⟩ := hmoved
          refine ⟨normalizeRemoteClientKey oldClientKey, fun requestKey pending he => ?_⟩
          rw [entryAt_setConnection, if_pos rfl] at he
          simp only [lookup_insert_eq] at he
          rw [entryAt_of_connection h, hold]
          exact he
        · refine ⟨key, fun requestKey pending he => ?_⟩
          rw [entryAt_setConnection] at he
          split at he
          next hepoch =>
            subst epoch
            have hkey : key ≠ sourceDefaultClientKey newSourceKind := fun heq => hmoved ⟨rfl, heq⟩
            simp only [lookup_insert_eq, lookup_erase_eq] at he
            rw [if_neg hkey] at he
            split at he
            next => cases he
            next => exact (entryAt_of_connection h key requestKey).trans he
          next => exact he
      next => exact .refl remote

theorem retain_inherits (p : Nat → PendingConnection → Bool) : Inherits remote ⟨remote.connections.retain p⟩ := by
  intro connectionEpoch clientKey
  refine ⟨clientKey, fun requestKey pending h => ?_⟩
  simp only [entryAt, connectionForEpochLocked, lookup_retain] at h ⊢
  cases hc : remote.connections.lookup connectionEpoch with
  | none => simp [hc] at h
  | some connection =>
    rw [hc, Option.filter_some] at h
    split at h
    next => exact h
    next => simp at h

theorem erase_inherits (epoch : Nat) : Inherits remote ⟨remote.connections.erase epoch⟩ := by
  intro connectionEpoch clientKey
  refine ⟨clientKey, fun requestKey pending h => ?_⟩
  simp only [entryAt, connectionForEpochLocked, lookup_erase_eq] at h ⊢
  split at h
  next => simp at h
  next => exact h

end

end MochiPort
