import Mathlib.Data.List.Sort
import MochiPort.RuntimeState
import MochiPort.RustText

namespace MochiPort

open Option RuntimeState RustText

def ImPlatformKind.key : ImPlatformKind → String
  | .feishu => "feishu"
  | .telegram => "telegram"
  | .wechat => "wechat"
  | .wecom => "wecom"

def splitConversationKey (conversationKey : String) : Option (ImPlatformKind × String × String) :=
  match splitOnce conversationKey ":" with
  | none => none
  | some (channel, rest) =>
    let platform : Option ImPlatformKind :=
      if channel = "feishu" then some .feishu
      else if channel = "telegram" then some .telegram
      else if channel = "wechat" then some .wechat
      else if channel = "wecom" then some .wecom
      else none
    match platform, splitOnce rest ":" with
    | some platform, some (accountId, chatId) => some (platform, accountId, chatId)
    | _, _ => none

section

-- the first eight bytes of the SHA-256 digest of a text, in hexadecimal
variable (digest : String → String)

def deterministicRemoteClientKeyFor (platform : ImPlatformKind) (accountId chatId : String) : String :=
  let source := platform.key ++ ":" ++ trim accountId ++ ":" ++ trim chatId
  "im:" ++ platform.key ++ ":" ++ digest source

def routeFromConversationKey (conversationKey : String) : Option RouteTarget :=
  (splitConversationKey conversationKey).map fun (platform, accountId, chatId) =>
    ⟨platform, conversationKey, accountId, chatId,
      deterministicRemoteClientKeyFor digest platform accountId chatId⟩

/-- The route of a chat, as `route_for_message` and the creation of a Topic build it. -/
def routeForChat (platform : ImPlatformKind) (accountId chatId : String) : RouteTarget :=
  ⟨platform, platform.key ++ ":" ++ accountId ++ ":" ++ chatId, accountId, chatId,
    deterministicRemoteClientKeyFor digest platform accountId chatId⟩

end

def isTelegramKey (conversationKey : String) : Bool :=
  (splitConversationKey conversationKey).any fun parts => parts.1 = .telegram

theorem splitConversationKey_platform (platform : ImPlatformKind) (accountId chatId : String) :
    (splitConversationKey (platform.key ++ ":" ++ accountId ++ ":" ++ chatId)).map (·.1) = some platform := by
  have hsplit : splitOnce (platform.key ++ ":" ++ (accountId ++ ":" ++ chatId)) ":" =
      some (platform.key, accountId ++ ":" ++ chatId) := by
    refine splitOnce_append (c := ':') rfl ?_
    cases platform <;> decide
  have hassoc : platform.key ++ ":" ++ accountId ++ ":" ++ chatId =
      platform.key ++ ":" ++ (accountId ++ ":" ++ chatId) := by
    simp [String.append_assoc]
  have hrest : (splitOnce (accountId ++ ":" ++ chatId) ":").isSome :=
    splitOnce_isSome (c := ':') rfl (by simp [String.toList_append])
  obtain ⟨⟨account, chat⟩, hrest⟩ := isSome_iff_exists.mp hrest
  rw [hassoc, splitConversationKey, hsplit]
  cases platform <;> simp [ImPlatformKind.key, hrest]

theorem isTelegramKey_routeForChat (digest : String → String) (platform : ImPlatformKind)
    (accountId chatId : String) :
    isTelegramKey (routeForChat digest platform accountId chatId).conversationKey =
      decide (platform = .telegram) := by
  obtain ⟨parts, hparts, rfl⟩ :=
    map_eq_some_iff.mp (splitConversationKey_platform platform accountId chatId)
  simp only [isTelegramKey, routeForChat, hparts, any_some]

def splitTelegramMessageTarget (target : String) : String × Option Nat :=
  match splitOnce target "|topic=" with
  | none => (target, none)
  | some (chatId, suffix) => (chatId, parsePositiveI64 suffix)

structure TelegramProjectGroupConfig where
  chatId : String
  cwd : String

structure TelegramConfig where
  accountId : String
  enabled : Bool
  botToken : String
  allowedChatIds : List String
  projectGroups : List TelegramProjectGroupConfig

namespace TelegramConfig

def isActive (account : TelegramConfig) : Bool :=
  account.enabled && trim account.botToken ≠ ""

def projectGroupForChat (account : TelegramConfig) (chatId : String) : Option TelegramProjectGroupConfig :=
  let chatId := trim chatId
  account.projectGroups.find? fun group => trim group.chatId = chatId && trim group.cwd ≠ ""

end TelegramConfig

def telegramAccount (accounts : List TelegramConfig) (accountId : String) : Option TelegramConfig :=
  let accountId := trim accountId
  accounts.find? fun account => trim account.accountId = accountId

/-- Whether a private chat or a project group of the account is what the target names. -/
def targetIsValid (account : TelegramConfig) (target : String) : Bool :=
  let (rawChatId, topicId) := splitTelegramMessageTarget target
  let allowedPrivateChat := account.allowedChatIds.any fun chatId => trim chatId = rawChatId
  let configuredProjectGroup := (account.projectGroupForChat rawChatId).isSome
  if topicId.isSome then configuredProjectGroup else allowedPrivateChat || configuredProjectGroup

def validPersistedTelegramRoute (digest : String → String) (accounts : List TelegramConfig)
    (conversationKey : String) : Option RouteTarget :=
  (routeFromConversationKey digest conversationKey).filter fun route =>
    route.platform = .telegram && trim route.accountId = route.accountId &&
      trim route.chatId = route.chatId &&
      (telegramAccount accounts route.accountId).any fun account =>
        account.isActive && targetIsValid account route.chatId

theorem validPersistedTelegramRoute_key {digest : String → String} {accounts : List TelegramConfig}
    {conversationKey : String} {route : RouteTarget}
    (h : validPersistedTelegramRoute digest accounts conversationKey = some route) :
    route.conversationKey = conversationKey ∧ isTelegramKey conversationKey = true := by
  obtain ⟨hroute, hvalid⟩ := filter_eq_some_iff.mp h
  obtain ⟨parts, hparts, rfl⟩ := map_eq_some_iff.mp hroute
  simp only [Bool.and_eq_true, decide_eq_true_eq] at hvalid
  refine ⟨rfl, ?_⟩
  rw [isTelegramKey, hparts]
  exact decide_eq_true hvalid.1.1.1

section

variable {T : Type}

def RuntimeState.keyOf (s : RuntimeState T) (threadId : String) : Option String :=
  (s.routeByThread.lookup threadId).map (·.conversationKey)

theorem routedTo_iff {s : RuntimeState T} {conversationKey threadId : String} :
    s.routedTo conversationKey threadId = true ↔ s.keyOf threadId = some conversationKey := by
  unfold routedTo keyOf
  cases s.routeByThread.lookup threadId <;> simp

theorem keyOf_congr {s t : RuntimeState T} (hroutes : t.routeByThread = s.routeByThread) (threadId : String) :
    t.keyOf threadId = s.keyOf threadId := by
  rw [keyOf, hroutes]
  rfl

theorem keyOf_bindRoute (s : RuntimeState T) (threadId thread : String) (route : RouteTarget) :
    (s.bindRoute threadId route).keyOf thread =
      if thread = threadId then some route.conversationKey else s.keyOf thread := by
  simp only [keyOf, bindRoute, Table.lookup_insert_eq]
  split <;> rfl

theorem keyOf_unbindRoutes (s : RuntimeState T) (conversationKey thread key : String) :
    (s.unbindRoutesForConversation conversationKey).keyOf thread = some key ↔
      s.keyOf thread = some key ∧ key ≠ conversationKey := by
  simp only [keyOf, unbindRoutesForConversation, Table.lookup_retain,
    routedTo]
  cases s.routeByThread.lookup thread with
  | none => simp
  | some route =>
    by_cases hkey : route.conversationKey = conversationKey
    · simp only [filter_some, any_some, hkey, decide_true, Bool.not_true,
        Bool.false_eq_true, if_false, map_none, reduceCtorEq, map_some, Option.some.injEq,
        false_iff, not_and, not_not]
      exact Eq.symm
    · simp only [filter_some, any_some, hkey, decide_false, Bool.not_false, if_true,
        map_some, Option.some.injEq, iff_self_and]
      rintro rfl
      exact hkey

end

end MochiPort
