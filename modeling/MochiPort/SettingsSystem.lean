import MochiPort.SettingsEditor

namespace MochiPort

/-- What a `/model` command opens an editor for. -/
structure EditorOpening where
  conversationKey : String
  accountId : String
  chatId : String
  threadId : String
  remoteClientKey : String
  catalog : List TelegramThreadSettingsModelChoice
  expiresAtMs : Nat
  deriving DecidableEq

structure EditorCallback where
  conversationKey : String
  action : EditorAction
  requestId : String
  revision : Nat
  cardMessageId : Option String
  nowMs : Nat
  deriving DecidableEq

/-- How far the handler of a command or of a button has got. It works on its own copy of the editor
until it locks the runtime again. -/
inductive EditorStage where
  | opening (request : TelegramModelSwitchRequestState)
  | read (action : EditorAction) (request : TelegramModelSwitchRequestState)
  | verified (action : EditorAction) (request : TelegramModelSwitchRequestState)
  | submitting (requestId : String) (revision : Nat)
  | rendering (requestId : String)
  deriving DecidableEq

structure EditorHandler where
  conversationKey : String
  stage : EditorStage
  deriving DecidableEq

/-- The copy that a handler is about to save, if it is about to save one. -/
def EditorHandler.saving (handler : EditorHandler) : Option TelegramModelSwitchRequestState :=
  match handler.stage with
  | .verified action request =>
    match request.outcome action with
    | .save _ => some request
    | _ => none
  | _ => none

/-- How a claimed apply stops being pending: by a release or a time-out of some handler's apply, by
an observation that confirms it, or together with its editor's draft. -/
inductive ApplyEnd where
  | released (party : Nat)
  | unconfirmed (party : Nat)
  | confirmed
  | withdrawn
  deriving DecidableEq

structure SettingsClaim where
  requestId : String
  threadId : String
  revision : Nat
  deriving DecidableEq

/-- The runtime with the handlers that run and the confirmation time-outs that are armed. An apply has
the number of the handler that claimed it. The last three fields record, for the statements only, who
claimed an editor last, what each apply was claimed on and how applies ended. -/
structure SettingsSystem where
  runtime : SettingsRuntime
  handlers : Table Nat EditorHandler
  timers : Table Nat (String × Nat)
  requestSequence : Nat
  spawned : Nat
  owner : Table String Nat
  claims : Table Nat SettingsClaim
  ended : List (Nat × ApplyEnd)

inductive SettingsStep where
  | open (opening : EditorOpening)
  | remember (handler : Nat)
  | callback (callback : EditorCallback)
  | verify (handler : Nat) (live : Bool)
  | act (handler nowMs : Nat)
  | rendered (handler : Nat) (messageId : Option String)
  | answered (handler : Nat) (accepted : Bool)
  | timedOut (apply : Nat)
  | observe (threadId : String) (update : ThreadSettingsSnapshot) (editor : Option String)
  | bind (threadId : String) (route : RouteTarget)
  | unbind (conversationKey : String)
  | openRouting (conversationKey : String)
  | restart
  deriving DecidableEq

def nextTelegramModelSwitchRequestId (sequence : Nat) : String := s!"thread-model-{sequence}"

def callbackTargetsCurrentMessage : Option String → Option String → Bool
  | some expected, some actual => expected = actual
  | _, _ => true

def EditorOpening.request (opening : EditorOpening) (observed : ThreadSettingsSnapshot) :
    TelegramModelSwitchRequestState where
  requestId := ""
  conversationKey := opening.conversationKey
  accountId := opening.accountId
  chatId := opening.chatId
  expectedThreadId := opening.threadId
  remoteClientKey := opening.remoteClientKey
  catalog := opening.catalog
  observed := observed
  draft := ⟨none, none, none⟩
  revision := 1
  expiresAtMs := opening.expiresAtMs
  stage := .overview
  modelPage := 1
  compatibility := none
  pendingApply := none
  stale := false
  messageId := none

namespace SettingsRuntime

def Pending (s : SettingsRuntime) (requestId : String) : Prop :=
  ∃ request, s.telegramModelSwitchRequest requestId = some request ∧ request.pendingApply.isSome = true

def pendingIds (s : SettingsRuntime) : List String :=
  s.telegramModelSwitchRequests.keys.filter fun id =>
    (s.telegramModelSwitchRequest id).any (·.pendingApply.isSome)

theorem mem_pendingIds {s : SettingsRuntime} {requestId : String} : requestId ∈ s.pendingIds ↔ s.Pending requestId := by
  rw [pendingIds, List.mem_filter, Option.any_eq_true]
  constructor
  · rintro ⟨-, request, hrequest, hpending⟩
    exact ⟨request, hrequest, hpending⟩
  · rintro ⟨request, hrequest, hpending⟩
    refine ⟨AList.mem_keys.mp ?_, request, hrequest, hpending⟩
    exact AList.lookup_isSome.mp (Option.isSome_iff_exists.mpr ⟨request, hrequest⟩)

end SettingsRuntime

namespace SettingsSystem

def start : SettingsSystem := ⟨.empty, ∅, ∅, 1, 0, ∅, ∅, []⟩

def idle (s : SettingsSystem) (conversationKey : String) : Bool :=
  (s.handlers.findKey? fun handler => handler.conversationKey = conversationKey).isNone

/-- The applies that are pending now and not in the runtime to come. -/
def endings (s : SettingsSystem) (runtime : SettingsRuntime) (how : ApplyEnd) : List (Nat × ApplyEnd) :=
  (s.runtime.pendingIds.filter fun id => id ∉ runtime.pendingIds).filterMap fun id =>
    (s.owner.lookup id).map fun apply => (apply, how)

def commit (s : SettingsSystem) (runtime : SettingsRuntime) (how : ApplyEnd) : SettingsSystem :=
  { s with runtime := runtime, ended := s.endings runtime how ++ s.ended }

def spawn (s : SettingsSystem) (conversationKey : String) (stage : EditorStage) : SettingsSystem :=
  { s with handlers := s.handlers.insert s.spawned ⟨conversationKey, stage⟩, spawned := s.spawned + 1 }

def moveTo (s : SettingsSystem) (n : Nat) (conversationKey : String) (stage : EditorStage) : SettingsSystem :=
  { s with handlers := s.handlers.insert n ⟨conversationKey, stage⟩ }

def finish (s : SettingsSystem) (n : Nat) : SettingsSystem := { s with handlers := s.handlers.erase n }

/-- `send_telegram_thread_settings`: the conversation's editor closes before the new one is made. -/
def beginOpen (s : SettingsSystem) (opening : EditorOpening) : SettingsSystem :=
  let cleared :=
    match s.runtime.currentTelegramModelSwitchRequest opening.conversationKey with
    | none => s.runtime
    | some request => s.runtime.clearTelegramModelSwitchRequest request.requestId
  (s.commit cleared .withdrawn).spawn opening.conversationKey
    (.opening (opening.request (s.runtime.threadSettingsSnapshot opening.threadId)))

def rememberEditor (s : SettingsSystem) (n : Nat) (conversationKey : String)
    (request : TelegramModelSwitchRequestState) : SettingsSystem :=
  let request := { request with requestId := nextTelegramModelSwitchRequestId s.requestSequence }
  { (s.commit (s.runtime.rememberTelegramModelSwitchRequest request) .withdrawn).moveTo n conversationKey
      (.rendering request.requestId) with
    requestSequence := (s.requestSequence + 1) % (u64Max + 1) }

/-- `checked_telegram_thread_settings_request` up to the first release of the runtime -/
def readEditor (s : SettingsSystem) (c : EditorCallback) : SettingsSystem :=
  match s.runtime.telegramModelSwitchRequest c.requestId with
  | none => s
  | some request =>
    if request.expiresAtMs ≤ c.nowMs then
      s.commit (s.runtime.clearTelegramModelSwitchRequest c.requestId) .withdrawn
    else if s.runtime.isCurrentTelegramModelSwitchRequest c.requestId c.conversationKey &&
        request.conversationKey = c.conversationKey && request.revision = c.revision &&
        callbackTargetsCurrentMessage request.messageId c.cardMessageId then
      s.spawn c.conversationKey (.read c.action request)
    else s

/-- Whether the editor's thread is still routed to the conversation, through the editor's client. -/
def routed (s : SettingsSystem) (conversationKey : String) (request : TelegramModelSwitchRequestState) : Bool :=
  (s.runtime.routeByThread.lookup request.expectedThreadId).any fun route =>
    route.conversationKey = conversationKey && route.remoteClientKey = request.remoteClientKey

/-- The rest of the check: a stale editor closes, and one whose thread is no longer the live thread of
the conversation is not acted on. `live` is what the search of the routes found. -/
def verifyEditor (s : SettingsSystem) (n : Nat) (conversationKey : String) (action : EditorAction)
    (request : TelegramModelSwitchRequestState) (live : Bool) : SettingsSystem :=
  if request.stale then
    (s.commit (s.runtime.clearTelegramModelSwitchRequest request.requestId) .withdrawn).finish n
  else if live && s.routed conversationKey request then
    s.moveTo n conversationKey (.verified action request)
  else s.finish n

/-- The claim of an apply, recorded under the number of its handler. -/
def claimed (s : SettingsSystem) (n : Nat) (conversationKey : String) (runtime : SettingsRuntime)
    (request : TelegramModelSwitchRequestState) : SettingsSystem :=
  { (s.commit runtime .withdrawn).moveTo n conversationKey (.submitting request.requestId request.revision) with
    owner := s.owner.insert request.requestId n
    claims := s.claims.insert n ⟨request.requestId, request.expectedThreadId, request.revision⟩ }

def actOn (s : SettingsSystem) (n : Nat) (conversationKey : String) (action : EditorAction)
    (request : TelegramModelSwitchRequestState) (nowMs : Nat) : SettingsSystem :=
  match request.outcome action with
  | .refuse => s.finish n
  | .save saved =>
    match s.runtime.updateTelegramModelSwitchRequest saved with
    | (runtime, true) => (s.commit runtime .withdrawn).moveTo n conversationKey (.rendering saved.requestId)
    | (_, false) => s.finish n
  | .close =>
    (s.commit (s.runtime.clearTelegramModelSwitchRequest request.requestId) .withdrawn).finish n
  | .submit patch =>
    match s.runtime.claimTelegramThreadSettingsApply request.requestId request.revision patch nowMs with
    | (runtime, some request) => s.claimed n conversationKey runtime request
    | (_, none) => s.finish n

/-- The client's answer arms the time-out, or releases the apply. -/
def answer (s : SettingsSystem) (n : Nat) (requestId : String) (revision : Nat) (accepted : Bool) : SettingsSystem :=
  if accepted then { s.finish n with timers := s.timers.insert n (requestId, revision) }
  else
    (s.commit (s.runtime.releaseTelegramThreadSettingsApply requestId revision).1 (.released n)).finish n

def expire (s : SettingsSystem) (n : Nat) (requestId : String) (revision : Nat) : SettingsSystem :=
  { s.commit (s.runtime.takeUnconfirmedTelegramThreadSettingsApply requestId revision).1 (.unconfirmed n) with
    timers := s.timers.erase n }

def observed (s : SettingsSystem) (threadId : String) (update : ThreadSettingsSnapshot)
    (editor : Option String) : SettingsSystem :=
  match s.runtime.observeThreadSettings threadId update editor with
  | (runtime, .confirmed _) => s.commit runtime .confirmed
  | (runtime, _) => s.commit runtime .withdrawn

/-- Whether the search for an editor of the thread can end with this one. -/
def finds (s : SettingsSystem) (threadId : String) : Option String → Bool
  | none => (s.runtime.telegramModelSwitchRequests.findKey? (·.expectedThreadId = threadId)).isNone
  | some id => (s.runtime.telegramModelSwitchRequest id).any (·.expectedThreadId = threadId)

def step (s : SettingsSystem) : SettingsStep → Option SettingsSystem
  | .open opening => if s.idle opening.conversationKey then some (s.beginOpen opening) else none
  | .remember n =>
    match s.handlers.lookup n with
    | some ⟨conversationKey, .opening request⟩ => some (s.rememberEditor n conversationKey request)
    | _ => none
  | .callback c => if s.idle c.conversationKey then some (s.readEditor c) else none
  | .verify n live =>
    match s.handlers.lookup n with
    | some ⟨conversationKey, .read action request⟩ =>
      some (s.verifyEditor n conversationKey action request live)
    | _ => none
  | .act n nowMs =>
    match s.handlers.lookup n with
    | some ⟨conversationKey, .verified action request⟩ =>
      some (s.actOn n conversationKey action request nowMs)
    | _ => none
  | .rendered n messageId =>
    match s.handlers.lookup n with
    | some ⟨_, .rendering requestId⟩ =>
      match messageId with
      | none => some (s.finish n)
      | some messageId =>
        some ((s.commit (s.runtime.updateTelegramModelSwitchRequestMessageId requestId messageId)
          .withdrawn).finish n)
    | _ => none
  | .answered n accepted =>
    match s.handlers.lookup n with
    | some ⟨_, .submitting requestId revision⟩ => some (s.answer n requestId revision accepted)
    | _ => none
  | .timedOut n =>
    match s.timers.lookup n with
    | some (requestId, revision) => some (s.expire n requestId revision)
    | none => none
  | .observe threadId update editor =>
    if s.finds threadId editor then some (s.observed threadId update editor) else none
  | .bind threadId route => some (s.commit (s.runtime.bindRoute threadId route) .withdrawn)
  | .unbind conversationKey =>
    some (s.commit (s.runtime.unbindRoutesForConversation conversationKey) .withdrawn)
  | .openRouting conversationKey =>
    some (s.commit (s.runtime.clearTelegramModelSwitchRequestsForConversation conversationKey) .withdrawn)
  | .restart => some { s.commit s.runtime.resetEditors .withdrawn with handlers := ∅ }

end SettingsSystem

end MochiPort
