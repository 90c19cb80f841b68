import MochiPort.RustText
import MochiPort.Tables

namespace MochiPort

def u64Max : Nat := UInt64.size - 1

inductive RemoteControlSourceKind where
  | codexApp
  | vscode
  | cli
  | unknown
  deriving DecidableEq

/-- One client of a connection, over the type `P` of its pending requests. -/
structure RemoteControlClientState (P : Type) where
  clientId : String
  streamId : String
  initialized : Bool
  nextSeqId : Nat
  pending : Table String P
  lastAppPongAtMs : Option Nat
  lastAppPongStatus : Option String

structure RemoteControlServerConnection (P : Type) where
  defaultClientKey : String
  connected : Bool
  sourceKind : RemoteControlSourceKind
  -- whether the sender of the outbound channel is still held
  outboundTx : Bool
  clients : Table String (RemoteControlClientState P)
  serverAckCursors : Table String (Nat × Option Nat)

/-- The state behind the remote lock; every connection has an epoch of its own. -/
structure RemoteControlInner (P : Type) where
  connections : Table Nat (RemoteControlServerConnection P)

def defaultRemoteClientKey : String := "default"

def mochiportBridgeClientId : String := "mochiport-bridge"

/-- The 64-bit FNV-1a hash of the seed, in hexadecimal behind the prefix. -/
def stableId (pre seed : String) : String :=
  let hash := seed.toUTF8.toList.foldl
    (fun (hash : UInt64) byte => (hash ^^^ byte.toUInt64) * 0x100000001b3) 0xcbf29ce484222325
  pre ++ "_" ++ RustText.hex16 hash

def normalizeRemoteClientKey (clientKey : String) : String :=
  let clientKey := RustText.trim clientKey
  if clientKey = "" then defaultRemoteClientKey else clientKey

def sourceDefaultClientKey : RemoteControlSourceKind → String
  | .codexApp => "default:codex_app"
  | .vscode => "default:vscode"
  | .cli => "default:cli"
  | .unknown => "default:unknown"

def sourceKindFromDefaultClientKey (clientKey : String) : Option RemoteControlSourceKind :=
  if clientKey = "default:codex_app" then some .codexApp
  else if clientKey = "default:vscode" then some .vscode
  else if clientKey = "default:cli" then some .cli
  else if clientKey = "default:unknown" then some .unknown
  else none

def isLegacyDefaultClientKey (clientKey : String) : Bool :=
  clientKey = defaultRemoteClientKey || clientKey.startsWith "default:"

def sourceKindFromUserAgent (userAgent : String) : RemoteControlSourceKind :=
  let userAgent := RustText.trim userAgent
  if userAgent.startsWith "Codex Desktop/" then .codexApp
  else if userAgent.startsWith "codex_vscode/" then .vscode
  else if userAgent.startsWith "mochiport/" || userAgent.startsWith "codexhub/" ||
      RustText.contains userAgent "WindowsTerminal" || RustText.contains userAgent "Terminal" then .cli
  else .unknown

section

variable {P : Type}

def connectionForEpochLocked (remote : RemoteControlInner P) (connectionEpoch : Nat) :
    Option (RemoteControlServerConnection P) :=
  remote.connections.lookup connectionEpoch

def connectionExistsLocked (remote : RemoteControlInner P) (connectionEpoch : Nat) : Bool :=
  (connectionForEpochLocked remote connectionEpoch).any (·.connected)

def setConnection (remote : RemoteControlInner P) (connectionEpoch : Nat)
    (connection : RemoteControlServerConnection P) : RemoteControlInner P :=
  ⟨remote.connections.insert connectionEpoch connection⟩

def remoteClientKeyForStreamOnConnectionLocked (remote : RemoteControlInner P)
    (connectionEpoch : Nat) (clientId streamId : String) : Option String :=
  (connectionForEpochLocked remote connectionEpoch).bind fun connection =>
    connection.clients.findKey? fun client => client.clientId = clientId && client.streamId = streamId

/-- The key under which a connection keeps the client that a caller names. -/
def clientKeyOnConnection (connection : RemoteControlServerConnection P) (clientKey : String) : String :=
  if RustText.trim clientKey = "" ∨ clientKey = defaultRemoteClientKey then connection.defaultClientKey
  else normalizeRemoteClientKey clientKey

/-- A new client takes the default client's stream id, or one derived from it; `uuidLike` is the
fresh id used when there is no default client. -/
def newClientState (connection : RemoteControlServerConnection P) (clientKey uuidLike : String) :
    RemoteControlClientState P :=
  let defaultStreamId :=
    ((connection.clients.lookup connection.defaultClientKey).map (·.streamId)).getD uuidLike
  let streamId :=
    if clientKey = connection.defaultClientKey then defaultStreamId
    else stableId "stream" (defaultStreamId ++ ":" ++ clientKey)
  ⟨mochiportBridgeClientId, streamId, false, 1, ∅, none, none⟩

def ensureClientState (connection : RemoteControlServerConnection P) (clientKey uuidLike : String) :
    String × RemoteControlClientState P :=
  let clientKey := clientKeyOnConnection connection clientKey
  (clientKey, (connection.clients.lookup clientKey).getD (newClientState connection clientKey uuidLike))

def setClient (connection : RemoteControlServerConnection P) (clientKey : String)
    (client : RemoteControlClientState P) : RemoteControlServerConnection P :=
  { connection with clients := connection.clients.insert clientKey client }

def clientStateForConnectionLocked (remote : RemoteControlInner P) (connectionEpoch : Nat)
    (clientKey : String) : Option (RemoteControlClientState P) :=
  (connectionForEpochLocked remote connectionEpoch).bind fun connection =>
    connection.clients.lookup (clientKeyOnConnection connection clientKey)

/-- Writes through the reference that `client_state_mut_for_connection_locked` returns. -/
def updateClient (remote : RemoteControlInner P) (connectionEpoch : Nat) (clientKey : String)
    (f : RemoteControlClientState P → RemoteControlClientState P) : RemoteControlInner P :=
  match connectionForEpochLocked remote connectionEpoch with
  | none => remote
  | some connection =>
    let clientKey := clientKeyOnConnection connection clientKey
    match connection.clients.lookup clientKey with
    | none => remote
    | some client => setConnection remote connectionEpoch (setClient connection clientKey (f client))

def defaultClientKeyForConnectionLocked (remote : RemoteControlInner P) (connectionEpoch : Nat) : String :=
  ((connectionForEpochLocked remote connectionEpoch).map (·.defaultClientKey)).getD
    defaultRemoteClientKey

def resolveRemoteClientKeyForConnectionLocked (remote : RemoteControlInner P) (connectionEpoch : Nat)
    (clientKey : String) : String :=
  let clientKey := normalizeRemoteClientKey clientKey
  if clientKey = defaultRemoteClientKey ∨ (sourceKindFromDefaultClientKey clientKey).isSome then
    defaultClientKeyForConnectionLocked remote connectionEpoch
  else clientKey

/-- Moves the default client to the key of its source, once the source is known; the client's key is
returned as it stands afterwards. -/
def migrateSourceDefaultClientKeyLocked (remote : RemoteControlInner P) (connectionEpoch : Nat)
    (oldClientKey : String) (newSourceKind : RemoteControlSourceKind) (clientId streamId : String) :
    RemoteControlInner P × String :=
  let oldClientKey := normalizeRemoteClientKey oldClientKey
  let newClientKey := sourceDefaultClientKey newSourceKind
  if newSourceKind = .unknown ∨ ¬isLegacyDefaultClientKey oldClientKey ∨ oldClientKey = newClientKey then
    (remote, oldClientKey)
  else
    match connectionForEpochLocked remote connectionEpoch with
    | none => (remote, oldClientKey)
    | some connection =>
      if (connection.clients.lookup newClientKey).isSome then (remote, oldClientKey)
      else
        match connection.clients.lookup oldClientKey with
        | none => (remote, oldClientKey)
        | some oldClient =>
          if oldClient.clientId = clientId ∧ oldClient.streamId = streamId then
            let clients := (connection.clients.erase oldClientKey).insert newClientKey oldClient
            (setConnection remote connectionEpoch
              { connection with clients := clients, defaultClientKey := newClientKey }, newClientKey)
          else (remote, oldClientKey)

def pruneInactiveRemoteConnectionsLocked (remote : RemoteControlInner P) : RemoteControlInner P :=
  ⟨remote.connections.retain fun _ connection => connection.connected && connection.outboundTx⟩

end

end MochiPort
