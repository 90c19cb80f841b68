import MochiPort.RuntimeState
import MochiPort.TelegramProgress

namespace MochiPort

open Option

/-- A setting as observed; `unknown` says nothing, `known none` that there is no override. -/
inductive ObservedSetting (T : Type) where
  | unknown
  | known (value : Option T)
  deriving DecidableEq

structure ThreadSettingsSnapshot where
  model : ObservedSetting String
  effort : ObservedSetting String
  serviceTier : ObservedSetting String
  deriving DecidableEq

structure TelegramThreadSettingsModelChoice where
  model : String
  label : String
  supportedEfforts : List String
  defaultEffort : Option String
  supportsFast : Bool
  deriving DecidableEq

inductive TelegramThreadSettingsSpeed where
  | standard
  | fast
  deriving DecidableEq

structure TelegramThreadSettingsDraft where
  model : Option String
  effort : Option String
  speed : Option TelegramThreadSettingsSpeed
  deriving DecidableEq

inductive TelegramThreadSettingsPatchValue where
  | unchanged
  | set (value : String)
  | clear
  deriving DecidableEq

structure TelegramThreadSettingsPatch where
  model : TelegramThreadSettingsPatchValue
  effort : TelegramThreadSettingsPatchValue
  serviceTier : TelegramThreadSettingsPatchValue
  deriving DecidableEq

inductive TelegramThreadSettingsStage where
  | overview
  | model
  | effort
  | speed
  | compatibilityConfirmation
  deriving DecidableEq

structure TelegramThreadSettingsCompatibility where
  resetEffort : Bool
  resetSpeed : Bool
  deriving DecidableEq

structure PendingTelegramThreadSettingsApply where
  patch : TelegramThreadSettingsPatch
  submittedAtMs : Nat
  deriving DecidableEq

/-- One staged settings editor of a thread that is bound to a conversation. -/
structure TelegramModelSwitchRequestState where
  requestId : String
  conversationKey : String
  accountId : String
  chatId : String
  expectedThreadId : String
  remoteClientKey : String
  catalog : List TelegramThreadSettingsModelChoice
  observed : ThreadSettingsSnapshot
  draft : TelegramThreadSettingsDraft
  revision : Nat
  expiresAtMs : Nat
  stage : TelegramThreadSettingsStage
  modelPage : Nat
  compatibility : Option TelegramThreadSettingsCompatibility
  pendingApply : Option PendingTelegramThreadSettingsApply
  stale : Bool
  messageId : Option String
  deriving DecidableEq

inductive TelegramThreadSettingsObservation where
  | none
  | confirmed (request : TelegramModelSwitchRequestState)
  | stale (request : TelegramModelSwitchRequestState)
  deriving DecidableEq

namespace ObservedSetting

variable {T : Type}

/-- `merge_observed_setting` -/
def merge (target : ObservedSetting T) : ObservedSetting T → ObservedSetting T
  | .unknown => target
  | .known value => .known value

/-- `observed_setting_changed` -/
def changed [DecidableEq T] : ObservedSetting T → ObservedSetting T → Bool
  | .known previous, .known update => previous ≠ update
  | _, _ => false

end ObservedSetting

namespace ThreadSettingsSnapshot

/-- The default snapshot, before anything was observed. -/
def unobserved : ThreadSettingsSnapshot := ⟨.unknown, .unknown, .unknown⟩

def mergeFrom (target update : ThreadSettingsSnapshot) : ThreadSettingsSnapshot :=
  ⟨target.model.merge update.model, target.effort.merge update.effort,
    target.serviceTier.merge update.serviceTier⟩

end ThreadSettingsSnapshot

def TelegramThreadSettingsPatchValue.matchesSetting (observed : ObservedSetting String) :
    TelegramThreadSettingsPatchValue → Bool
  | .unchanged => true
  | .set expected => observed = .known (some expected)
  | .clear => observed = .known none

namespace TelegramThreadSettingsPatch

def isEmpty (patch : TelegramThreadSettingsPatch) : Bool :=
  patch.model = .unchanged && patch.effort = .unchanged && patch.serviceTier = .unchanged

/-- `telegram_thread_settings_patch_matches` -/
def matchesSnapshot (patch : TelegramThreadSettingsPatch) (snapshot : ThreadSettingsSnapshot) : Bool :=
  patch.model.matchesSetting snapshot.model && patch.effort.matchesSetting snapshot.effort &&
    patch.serviceTier.matchesSetting snapshot.serviceTier

end TelegramThreadSettingsPatch

/-- `telegram_thread_settings_draft_was_changed_externally` -/
def TelegramThreadSettingsDraft.wasChangedExternally (draft : TelegramThreadSettingsDraft)
    (previous update : ThreadSettingsSnapshot) : Bool :=
  draft.model.isSome && previous.model.changed update.model ||
    draft.effort.isSome && previous.effort.changed update.effort ||
    draft.speed.isSome && previous.serviceTier.changed update.serviceTier

/-- The runtime's routes, settings editors and observed settings. -/
structure SettingsRuntime where
  routeByThread : Table String RouteTarget
  telegramModelSwitchRequests : Table String TelegramModelSwitchRequestState
  telegramModelSwitchRequestByConversation : Table String String
  threadSettingsByThread : Table String ThreadSettingsSnapshot

namespace SettingsRuntime

variable (s : SettingsRuntime)

def empty : SettingsRuntime := ⟨∅, ∅, ∅, ∅⟩

def telegramModelSwitchRequest (requestId : String) : Option TelegramModelSwitchRequestState :=
  s.telegramModelSwitchRequests.lookup requestId

def storeRequest (request : TelegramModelSwitchRequestState) : SettingsRuntime :=
  { s with
    telegramModelSwitchRequests := s.telegramModelSwitchRequests.insert request.requestId request }

def isCurrentTelegramModelSwitchRequest (requestId conversationKey : String) : Bool :=
  s.telegramModelSwitchRequestByConversation.lookup conversationKey = some requestId

def clearTelegramModelSwitchRequest (requestId : String) : SettingsRuntime :=
  match s.telegramModelSwitchRequest requestId with
  | none => s
  | some request =>
    let current := s.telegramModelSwitchRequestByConversation
    { s with
      telegramModelSwitchRequests := s.telegramModelSwitchRequests.erase requestId
      telegramModelSwitchRequestByConversation :=
        if s.isCurrentTelegramModelSwitchRequest requestId request.conversationKey then
          current.erase request.conversationKey
        else current }

def clearTelegramModelSwitchRequestsForConversation (conversationKey : String) : SettingsRuntime :=
  { s with
    telegramModelSwitchRequests :=
      s.telegramModelSwitchRequests.retain fun _ request => request.conversationKey ≠ conversationKey
    telegramModelSwitchRequestByConversation :=
      s.telegramModelSwitchRequestByConversation.erase conversationKey }

/-- An older request of the same id leaves its conversation, then the conversation's others leave. -/
def rememberTelegramModelSwitchRequest (request : TelegramModelSwitchRequestState) : SettingsRuntime :=
  let s := s.clearTelegramModelSwitchRequest request.requestId
  let s := s.clearTelegramModelSwitchRequestsForConversation request.conversationKey
  { s with
    telegramModelSwitchRequestByConversation :=
      s.telegramModelSwitchRequestByConversation.insert request.conversationKey request.requestId
    telegramModelSwitchRequests := s.telegramModelSwitchRequests.insert request.requestId request }

def currentTelegramModelSwitchRequest (conversationKey : String) : Option TelegramModelSwitchRequestState :=
  (s.telegramModelSwitchRequestByConversation.lookup conversationKey).bind s.telegramModelSwitchRequest

def threadSettingsSnapshot (threadId : String) : ThreadSettingsSnapshot :=
  (s.threadSettingsByThread.lookup threadId).getD .unobserved

/-- The editor after a change from outside the conversation. -/
def markedStale (request : TelegramModelSwitchRequestState) : TelegramModelSwitchRequestState :=
  { request with
    stale := true, pendingApply := none, compatibility := none, stage := .overview
    revision := saturatingAdd request.revision 1 }

def observing (threadId : String) (update : ThreadSettingsSnapshot) : SettingsRuntime :=
  { s with threadSettingsByThread :=
      s.threadSettingsByThread.insert threadId ((s.threadSettingsSnapshot threadId).mergeFrom update) }

/-- Merges an observation of the thread's settings. `editor` is the id of the editor that the search
of the map finds, for there may be several of one thread. -/
def observeThreadSettings (threadId : String) (update : ThreadSettingsSnapshot) (editor : Option String) :
    SettingsRuntime × TelegramThreadSettingsObservation :=
  let previous := s.threadSettingsSnapshot threadId
  let merged := previous.mergeFrom update
  let s := s.observing threadId update
  match editor.bind s.telegramModelSwitchRequest with
  | none => (s, .none)
  | some request =>
    let request := { request with observed := merged }
    if request.pendingApply.any fun pending => pending.patch.matchesSnapshot merged then
      ((s.storeRequest request).clearTelegramModelSwitchRequest request.requestId, .confirmed request)
    else if !request.stale && request.draft.wasChangedExternally previous update then
      (s.storeRequest (markedStale request), .stale (markedStale request))
    else (s.storeRequest request, .none)

def updateTelegramModelSwitchRequest (request : TelegramModelSwitchRequestState) : SettingsRuntime × Bool :=
  if s.isCurrentTelegramModelSwitchRequest request.requestId request.conversationKey then
    (s.storeRequest request, true)
  else (s, false)

def claimTelegramThreadSettingsApply (requestId : String) (revision : Nat)
    (patch : TelegramThreadSettingsPatch) (submittedAtMs : Nat) :
    SettingsRuntime × Option TelegramModelSwitchRequestState :=
  match s.telegramModelSwitchRequest requestId with
  | none => (s, none)
  | some request =>
    if request.revision ≠ revision || request.pendingApply.isSome || request.stale then (s, none)
    else
      let request := { request with pendingApply := some ⟨patch, submittedAtMs⟩ }
      (s.storeRequest request, some request)

def takeUnconfirmedTelegramThreadSettingsApply (requestId : String) (revision : Nat) :
    SettingsRuntime × Option TelegramModelSwitchRequestState :=
  match s.telegramModelSwitchRequest requestId with
  | none => (s, none)
  | some request =>
    if request.revision ≠ revision || request.pendingApply.isNone then (s, none)
    else (s.clearTelegramModelSwitchRequest requestId, some request)

def releaseTelegramThreadSettingsApply (requestId : String) (revision : Nat) :
    SettingsRuntime × Option TelegramModelSwitchRequestState :=
  match s.telegramModelSwitchRequest requestId with
  | none => (s, none)
  | some request =>
    if request.revision ≠ revision || request.pendingApply.isNone then (s, none)
    else
      let request := { request with pendingApply := none }
      (s.storeRequest request, some request)

def updateTelegramModelSwitchRequestMessageId (requestId messageId : String) : SettingsRuntime :=
  match s.telegramModelSwitchRequest requestId with
  | none => s
  | some request => s.storeRequest { request with messageId := some messageId }

/-- Whether a route moves the thread to another conversation or client. -/
def reroutes (threadId : String) (route : RouteTarget) : Bool :=
  (s.routeByThread.lookup threadId).all fun previous =>
    previous.conversationKey ≠ route.conversationKey ∨ previous.remoteClientKey ≠ route.remoteClientKey

/-- The thread's new route. One that moves the thread closes the editors of both conversations. -/
def bindRoute (threadId : String) (route : RouteTarget) : SettingsRuntime :=
  let bound := { s with routeByThread := s.routeByThread.insert threadId route }
  if s.reroutes threadId route then
    let closed := bound.clearTelegramModelSwitchRequestsForConversation route.conversationKey
    match s.routeByThread.lookup threadId with
    | none => closed
    | some previous => closed.clearTelegramModelSwitchRequestsForConversation previous.conversationKey
  else bound

/-- The threads of the conversation without their routes and their observed settings. -/
def unroute (conversationKey : String) : SettingsRuntime :=
  let routed threadId := (s.routeByThread.lookup threadId).any (·.conversationKey = conversationKey)
  { s with
    routeByThread := s.routeByThread.retain fun threadId _ => !routed threadId
    threadSettingsByThread := s.threadSettingsByThread.retain fun threadId _ => !routed threadId }

def unbindRoutesForConversation (conversationKey : String) : SettingsRuntime :=
  (s.unroute conversationKey).clearTelegramModelSwitchRequestsForConversation conversationKey

/-- What a change of the bridge generation leaves: no editors and no observed settings. -/
def resetEditors : SettingsRuntime :=
  { s with
    telegramModelSwitchRequests := ∅
    telegramModelSwitchRequestByConversation := ∅
    threadSettingsByThread := ∅ }

variable {s}

theorem request_storeRequest (request : TelegramModelSwitchRequestState) (id : String) :
    (s.storeRequest request).telegramModelSwitchRequest id =
      if id = request.requestId then some request else s.telegramModelSwitchRequest id :=
  Table.lookup_insert_eq _ _ _ _

theorem request_clear (requestId id : String) :
    (s.clearTelegramModelSwitchRequest requestId).telegramModelSwitchRequest id =
      if id = requestId then none else s.telegramModelSwitchRequest id := by
  unfold clearTelegramModelSwitchRequest
  cases hstored : s.telegramModelSwitchRequest requestId with
  | none =>
    dsimp only
    split
    next h => rw [h, hstored]
    next => rfl
  | some request => exact Table.lookup_erase_eq _ _ _

theorem request_clearConversation (conversationKey id : String) :
    (s.clearTelegramModelSwitchRequestsForConversation conversationKey).telegramModelSwitchRequest id =
      (s.telegramModelSwitchRequest id).filter fun request => request.conversationKey ≠ conversationKey :=
  Table.lookup_retain _ _ _

theorem request_remember (request : TelegramModelSwitchRequestState) (id : String) :
    (s.rememberTelegramModelSwitchRequest request).telegramModelSwitchRequest id =
      if id = request.requestId then some request
      else (s.telegramModelSwitchRequest id).filter fun other =>
        other.conversationKey ≠ request.conversationKey := by
  have hinsert : (s.rememberTelegramModelSwitchRequest request).telegramModelSwitchRequest id =
      if id = request.requestId then some request
      else ((s.clearTelegramModelSwitchRequest request.requestId
        ).clearTelegramModelSwitchRequestsForConversation
          request.conversationKey).telegramModelSwitchRequest id := Table.lookup_insert_eq _ _ _ _
  rw [hinsert, request_clearConversation, request_clear]
  split
  next => rfl
  next => rfl

section

variable (s)

theorem claim_cases (requestId : String) (revision : Nat)
    (patch : TelegramThreadSettingsPatch) (submittedAtMs : Nat) :
    s.claimTelegramThreadSettingsApply requestId revision patch submittedAtMs = (s, none) ∨
      ∃ request, s.telegramModelSwitchRequest requestId = some request ∧ request.revision = revision ∧
        request.pendingApply = none ∧ request.stale = false ∧
        s.claimTelegramThreadSettingsApply requestId revision patch submittedAtMs =
          (s.storeRequest { request with pendingApply := some ⟨patch, submittedAtMs⟩ },
            some { request with pendingApply := some ⟨patch, submittedAtMs⟩ }) := by
  unfold claimTelegramThreadSettingsApply
  cases hstored : s.telegramModelSwitchRequest requestId with
  | none => exact .inl rfl
  | some request =>
    dsimp only
    split
    next => exact .inl rfl
    next h =>
      simp only [Bool.or_eq_true, decide_eq_true_eq, not_or, not_not, Bool.not_eq_true] at h
      obtain ⟨⟨hrevision, hpending⟩, hstale⟩ := h
      exact .inr ⟨request, rfl, hrevision, isSome_eq_false_iff.mp hpending |> isNone_iff_eq_none.mp,
        hstale, rfl⟩

theorem release_cases (requestId : String) (revision : Nat) :
    ((s.releaseTelegramThreadSettingsApply requestId revision).1 = s ∧
      ∀ request, s.telegramModelSwitchRequest requestId = some request → request.revision = revision →
        request.pendingApply = none) ∨
      ∃ request, s.telegramModelSwitchRequest requestId = some request ∧ request.revision = revision ∧
        request.pendingApply.isSome = true ∧
        (s.releaseTelegramThreadSettingsApply requestId revision).1 =
          s.storeRequest { request with pendingApply := none } := by
  unfold releaseTelegramThreadSettingsApply
  cases hstored : s.telegramModelSwitchRequest requestId with
  | none =>
    refine .inl ⟨rfl, ?_⟩
    intro request h
    cases h
  | some request =>
    dsimp only
    split
    next h =>
      refine .inl ⟨rfl, ?_⟩
      rintro request' h' hrevision
      cases h'
      simpa [hrevision] using h
    next h =>
      simp only [Bool.or_eq_true, decide_eq_true_eq, not_or, not_not, Bool.not_eq_true,
        isNone_eq_false_iff] at h
      exact .inr ⟨request, rfl, h.1, h.2, rfl⟩

theorem take_cases (requestId : String) (revision : Nat) :
    ((s.takeUnconfirmedTelegramThreadSettingsApply requestId revision).1 = s ∧
      ∀ request, s.telegramModelSwitchRequest requestId = some request → request.revision = revision →
        request.pendingApply = none) ∨
      ∃ request, s.telegramModelSwitchRequest requestId = some request ∧ request.revision = revision ∧
        request.pendingApply.isSome = true ∧
        (s.takeUnconfirmedTelegramThreadSettingsApply requestId revision).1 =
          s.clearTelegramModelSwitchRequest requestId := by
  unfold takeUnconfirmedTelegramThreadSettingsApply
  cases hstored : s.telegramModelSwitchRequest requestId with
  | none =>
    refine .inl ⟨rfl, ?_⟩
    intro request h
    cases h
  | some request =>
    dsimp only
    split
    next h =>
      refine .inl ⟨rfl, ?_⟩
      rintro request' h' hrevision
      cases h'
      simpa [hrevision] using h
    next h =>
      simp only [Bool.or_eq_true, decide_eq_true_eq, not_or, not_not, Bool.not_eq_true,
        isNone_eq_false_iff] at h
      exact .inr ⟨request, rfl, h.1, h.2, rfl⟩

end

/-- An observation finds no editor, or confirms the pending apply of the one it finds, or marks it stale,
or only shows it the new settings. -/
theorem observe_cases (s : SettingsRuntime) (threadId : String) (update : ThreadSettingsSnapshot)
    (editor : Option String) :
    (editor.bind s.telegramModelSwitchRequest = none ∧
        s.observeThreadSettings threadId update editor = (s.observing threadId update, .none)) ∨
      ∃ id request row, editor = some id ∧ s.telegramModelSwitchRequest id = some request ∧
        row = { request with observed := (s.threadSettingsSnapshot threadId).mergeFrom update } ∧
        ((request.pendingApply.any fun pending =>
              pending.patch.matchesSnapshot ((s.threadSettingsSnapshot threadId).mergeFrom update)) = true ∧
            s.observeThreadSettings threadId update editor =
              (((s.observing threadId update).storeRequest row).clearTelegramModelSwitchRequest row.requestId,
                .confirmed row) ∨
          (request.pendingApply.any fun pending =>
              pending.patch.matchesSnapshot ((s.threadSettingsSnapshot threadId).mergeFrom update)) = false ∧
            ((request.stale = false ∧
                request.draft.wasChangedExternally (s.threadSettingsSnapshot threadId) update = true ∧
                s.observeThreadSettings threadId update editor =
                  ((s.observing threadId update).storeRequest (markedStale row), .stale (markedStale row))) ∨
              s.observeThreadSettings threadId update editor =
                ((s.observing threadId update).storeRequest row, .none))) := by
  unfold observeThreadSettings
  dsimp only
  cases hfound : editor.bind s.telegramModelSwitchRequest with
  | none =>
    refine .inl ⟨rfl, ?_⟩
    rw [show editor.bind (s.observing threadId update).telegramModelSwitchRequest = none from hfound]
  | some request =>
    obtain ⟨id, hid, hstored⟩ := bind_eq_some_iff.mp hfound
    refine .inr ⟨id, request, _, hid, hstored, rfl, ?_⟩
    rw [show editor.bind (s.observing threadId update).telegramModelSwitchRequest = some request from hfound]
    dsimp only
    split
    next hmatch => exact .inl ⟨hmatch, rfl⟩
    next hmatch =>
      refine .inr ⟨Bool.eq_false_iff.mpr hmatch, ?_⟩
      split
      next hchanged =>
        rw [Bool.and_eq_true, Bool.not_eq_true'] at hchanged
        exact .inl ⟨hchanged.1, hchanged.2, rfl⟩
      next => exact .inr rfl

/-- What every operation keeps of the editors: each is stored under its own id and is the only one of
its conversation, a conversation's current editor is stored, and a stale editor awaits nothing. -/
structure Tidy (s : SettingsRuntime) : Prop where
  keyed : ∀ id request, s.telegramModelSwitchRequest id = some request → request.requestId = id
  single : ∀ id other request request', s.telegramModelSwitchRequest id = some request →
    s.telegramModelSwitchRequest other = some request' →
    request'.conversationKey = request.conversationKey → other = id
  current : ∀ conversationKey id, s.isCurrentTelegramModelSwitchRequest id conversationKey = true →
    ∃ request, s.telegramModelSwitchRequest id = some request ∧ request.conversationKey = conversationKey
  idle : ∀ id request, s.telegramModelSwitchRequest id = some request → request.stale = true →
    request.pendingApply = none
  bounded : ∀ id request, s.telegramModelSwitchRequest id = some request → request.revision ≤ u64Max

namespace Tidy

theorem empty : SettingsRuntime.empty.Tidy := by
  constructor
  · intro id request h
    cases h
  · intro id other request request' h
    cases h
  · intro conversationKey id h
    cases of_decide_eq_true h
  · intro id request h
    cases h
  · intro id request h
    cases h

section

variable (hs : s.Tidy)
include hs

theorem congr {t : SettingsRuntime} (hrequests : t.telegramModelSwitchRequests = s.telegramModelSwitchRequests)
    (hcurrent : t.telegramModelSwitchRequestByConversation = s.telegramModelSwitchRequestByConversation) :
    t.Tidy := by
  obtain ⟨routes, requests, current, settings⟩ := t
  cases hrequests
  cases hcurrent
  exact ⟨hs.keyed, hs.single, hs.current, hs.idle, hs.bounded⟩

theorem isCurrent_clear {requestId id conversationKey : String} (h : (s.clearTelegramModelSwitchRequest requestId).isCurrentTelegramModelSwitchRequest id
      conversationKey = true) : s.isCurrentTelegramModelSwitchRequest id conversationKey = true ∧ id ≠ requestId := by
  unfold clearTelegramModelSwitchRequest at h
  cases hstored : s.telegramModelSwitchRequest requestId with
  | none =>
    rw [hstored] at h
    refine ⟨h, ?_⟩
    rintro rfl
    obtain ⟨request, hrequest, -⟩ := hs.current _ _ h
    rw [hstored] at hrequest
    cases hrequest
  | some request =>
    rw [hstored] at h
    have hcurrent := of_decide_eq_true h
    dsimp only at hcurrent
    split at hcurrent
    next hown =>
      rw [Table.lookup_erase_eq] at hcurrent
      split at hcurrent
      next => cases hcurrent
      next hkey =>
        refine ⟨decide_eq_true hcurrent, ?_⟩
        rintro rfl
        obtain ⟨request', hrequest', hkey'⟩ := hs.current _ _ (decide_eq_true hcurrent)
        rw [hstored] at hrequest'
        cases hrequest'
        exact hkey hkey'.symm
    next hother =>
      refine ⟨decide_eq_true hcurrent, ?_⟩
      rintro rfl
      obtain ⟨request', hrequest', hkey'⟩ := hs.current _ _ (decide_eq_true hcurrent)
      rw [hstored] at hrequest'
      cases hrequest'
      exact hother (hkey' ▸ decide_eq_true hcurrent)

theorem clear (requestId : String) : (s.clearTelegramModelSwitchRequest requestId).Tidy := by
  have hof : ∀ id request,
      (s.clearTelegramModelSwitchRequest requestId).telegramModelSwitchRequest id = some request →
      s.telegramModelSwitchRequest id = some request := by
    intro id request h
    rw [request_clear] at h
    split at h
    next => cases h
    next => exact h
  constructor
  · intro id request h
    exact hs.keyed id request (hof _ _ h)
  · intro id other request request' h h'
    exact hs.single id other request request' (hof _ _ h) (hof _ _ h')
  · intro conversationKey id h
    obtain ⟨hcurrent, hne⟩ := hs.isCurrent_clear h
    obtain ⟨request, hrequest, hkey⟩ := hs.current _ _ hcurrent
    refine ⟨request, ?_, hkey⟩
    rw [request_clear, if_neg hne]
    exact hrequest
  · intro id request h
    exact hs.idle id request (hof _ _ h)
  · intro id request h
    exact hs.bounded id request (hof _ _ h)

theorem clearConversation (conversationKey : String) :
    (s.clearTelegramModelSwitchRequestsForConversation conversationKey).Tidy := by
  have hof : ∀ id request, (s.clearTelegramModelSwitchRequestsForConversation
      conversationKey).telegramModelSwitchRequest id = some request →
      s.telegramModelSwitchRequest id = some request := by
    intro id request h
    rw [request_clearConversation] at h
    exact (filter_eq_some_iff.mp h).1
  constructor
  · intro id request h
    exact hs.keyed id request (hof _ _ h)
  · intro id other request request' h h'
    exact hs.single id other request request' (hof _ _ h) (hof _ _ h')
  · intro key id h
    have hcurrent := of_decide_eq_true h
    dsimp only [clearTelegramModelSwitchRequestsForConversation] at hcurrent
    rw [Table.lookup_erase_eq] at hcurrent
    split at hcurrent
    next => cases hcurrent
    next hkey =>
      obtain ⟨request, hrequest, hown⟩ := hs.current _ _ (decide_eq_true hcurrent)
      refine ⟨request, ?_, hown⟩
      rw [request_clearConversation, hrequest]
      exact filter_eq_some_iff.mpr ⟨rfl, decide_eq_true (hown ▸ hkey)⟩
  · intro id request h
    exact hs.idle id request (hof _ _ h)
  · intro id request h
    exact hs.bounded id request (hof _ _ h)

theorem store {earlier request : TelegramModelSwitchRequestState}
    (hstored : s.telegramModelSwitchRequest request.requestId = some earlier)
    (hkey : request.conversationKey = earlier.conversationKey)
    (hidle : request.stale = true → request.pendingApply = none) (hbounded : request.revision ≤ u64Max) :
    (s.storeRequest request).Tidy := by
  have hof : ∀ id request', (s.storeRequest request).telegramModelSwitchRequest id = some request' →
      (id = request.requestId ∧ request' = request) ∨ s.telegramModelSwitchRequest id = some request' := by
    intro id request' h
    rw [request_storeRequest] at h
    split at h
    next hid => exact .inl ⟨hid, (Option.some.inj h).symm⟩
    next => exact .inr h
  constructor
  · intro id request' h
    obtain ⟨rfl, rfl⟩ | h := hof _ _ h
    · rfl
    · exact hs.keyed _ _ h
  · intro id other first second h h' hsame
    obtain ⟨rfl, rfl⟩ | hfirst := hof _ _ h
    · obtain ⟨rfl, rfl⟩ | hsecond := hof _ _ h'
      · rfl
      · exact hs.single _ _ _ _ hstored hsecond (hsame.trans hkey)
    · obtain ⟨rfl, rfl⟩ | hsecond := hof _ _ h'
      · exact hs.single _ _ _ _ hfirst hstored (hkey.symm.trans hsame)
      · exact hs.single _ _ _ _ hfirst hsecond hsame
  · intro conversationKey id h
    obtain ⟨request', hrequest, hown⟩ := hs.current conversationKey id h
    by_cases hid : id = request.requestId
    · subst hid
      cases hstored.symm.trans hrequest
      exact ⟨request, (request_storeRequest _ _).trans (if_pos rfl), hkey.trans hown⟩
    · exact ⟨request', ((request_storeRequest _ _).trans (if_neg hid)).trans hrequest, hown⟩
  · intro id request' h
    obtain ⟨rfl, rfl⟩ | h := hof _ _ h
    · exact hidle
    · exact hs.idle _ _ h
  · intro id request' h
    obtain ⟨-, rfl⟩ | h := hof _ _ h
    · exact hbounded
    · exact hs.bounded _ _ h

theorem remember {request : TelegramModelSwitchRequestState}
    (hidle : request.stale = true → request.pendingApply = none) (hbounded : request.revision ≤ u64Max) :
    (s.rememberTelegramModelSwitchRequest request).Tidy := by
  have hrest := (hs.clear request.requestId).clearConversation request.conversationKey
  have hof : ∀ id request',
      (s.rememberTelegramModelSwitchRequest request).telegramModelSwitchRequest id = some request' →
      (id = request.requestId ∧ request' = request) ∨
        (s.telegramModelSwitchRequest id = some request' ∧
          request'.conversationKey ≠ request.conversationKey) := by
    intro id request' h
    rw [request_remember] at h
    split at h
    next hid => exact .inl ⟨hid, (Option.some.inj h).symm⟩
    next =>
      obtain ⟨hstored, hkey⟩ := filter_eq_some_iff.mp h
      exact .inr ⟨hstored, of_decide_eq_true hkey⟩
  constructor
  · intro id request' h
    obtain ⟨rfl, rfl⟩ | ⟨h, -⟩ := hof _ _ h
    · rfl
    · exact hs.keyed _ _ h
  · intro id other first second h h' hsame
    obtain ⟨rfl, rfl⟩ | ⟨hfirst, hkey⟩ := hof _ _ h
    · obtain ⟨rfl, rfl⟩ | ⟨-, hkey'⟩ := hof _ _ h'
      · rfl
      · exact absurd hsame hkey'
    · obtain ⟨rfl, rfl⟩ | ⟨hsecond, -⟩ := hof _ _ h'
      · exact absurd hsame.symm hkey
      · exact hs.single _ _ _ _ hfirst hsecond hsame
  · intro conversationKey id h
    have hcurrent := of_decide_eq_true h
    dsimp only [rememberTelegramModelSwitchRequest] at hcurrent
    rw [Table.lookup_insert_eq] at hcurrent
    split at hcurrent
    next hkey =>
      cases Option.some.inj hcurrent
      exact ⟨request, (request_remember _ _).trans (if_pos rfl), hkey.symm⟩
    next hkey =>
      obtain ⟨request', hrequest, hown⟩ := hrest.current _ _ (decide_eq_true hcurrent)
      rw [request_clearConversation, request_clear] at hrequest
      obtain ⟨hstored, hother⟩ := filter_eq_some_iff.mp hrequest
      split at hstored
      next => cases hstored
      next hid =>
        refine ⟨request', ?_, hown⟩
        rw [request_remember, if_neg hid]
        exact filter_eq_some_iff.mpr ⟨hstored, hother⟩
  · intro id request' h
    obtain ⟨rfl, rfl⟩ | ⟨h, -⟩ := hof _ _ h
    · exact hidle
    · exact hs.idle _ _ h
  · intro id request' h
    obtain ⟨-, rfl⟩ | ⟨h, -⟩ := hof _ _ h
    · exact hbounded
    · exact hs.bounded _ _ h

end

theorem reset (s : SettingsRuntime) : s.resetEditors.Tidy :=
  Tidy.empty.congr rfl rfl

end Tidy

end SettingsRuntime

end MochiPort
