import MochiPort.Runs
import MochiPort.ThreadSettings

namespace MochiPort

inductive ThreadSettingsField where
  | model
  | effort
  | speed
  deriving DecidableEq

inductive ThreadRouteDirection where
  | prev
  | next
  deriving DecidableEq

inductive EditorAction where
  | openField (field : ThreadSettingsField)
  | modelPage (direction : ThreadRouteDirection)
  | chooseModel (page index : Nat)
  | chooseEffort (index : Nat)
  | chooseSpeed (fast : Bool)
  | back
  | apply
  | compatibilityConfirm (accept : Bool)
  | cancel
  deriving DecidableEq

/-- What the handler of a button does with the editor it has read. -/
inductive EditorOutcome where
  | refuse
  | save (request : TelegramModelSwitchRequestState)
  | close
  | submit (patch : TelegramThreadSettingsPatch)
  deriving DecidableEq

def telegramModelPageSize : Nat := 8

def ObservedSetting.value? {T : Type} : ObservedSetting T → Option T
  | .unknown => none
  | .known value => value

namespace TelegramModelSwitchRequestState

variable (request : TelegramModelSwitchRequestState)

/-- `thread_settings_selected_model` -/
def selectedModel : Option TelegramThreadSettingsModelChoice :=
  (request.draft.model <|> request.observed.model.value?).bind fun model =>
    request.catalog.find? fun choice => choice.model = model

/-- `thread_settings_compatibility` -/
def settingsCompatibility : TelegramThreadSettingsCompatibility :=
  let targetModelChanged :=
    request.draft.model.any fun model => request.observed.model ≠ .known (some model)
  let selectedEffort := request.draft.effort <|> request.observed.effort.value?
  let selectedFast := request.draft.speed = some .fast ||
    (request.draft.speed.isNone && request.observed.serviceTier = .known (some "priority"))
  { resetEffort :=
      (request.draft.effort.isSome || targetModelChanged) && request.selectedModel.any fun choice =>
        selectedEffort.any fun effort => !choice.supportedEfforts.contains effort
    resetSpeed :=
      (request.draft.speed.isSome || targetModelChanged) && selectedFast &&
        request.selectedModel.any fun choice => !choice.supportsFast }

/-- `thread_settings_string_patch` -/
def stringPatch (selected : Option String) (observed : ObservedSetting String) : TelegramThreadSettingsPatchValue :=
  match selected with
  | none => .unchanged
  | some selected => if observed = .known (some selected) then .unchanged else .set selected

/-- `thread_settings_patch` -/
def settingsPatch (compatibility : Option TelegramThreadSettingsCompatibility) : TelegramThreadSettingsPatch where
  model := stringPatch request.draft.model request.observed.model
  effort :=
    if compatibility.any (·.resetEffort) then .clear
    else stringPatch request.draft.effort request.observed.effort
  serviceTier :=
    if compatibility.any (·.resetSpeed) then .clear
    else
      match request.draft.speed with
      | none => .unchanged
      | some .fast =>
        if request.observed.serviceTier = .known (some "priority") then .unchanged else .set "priority"
      | some .standard => if request.observed.serviceTier = .known none then .unchanged else .clear

def bumped : TelegramModelSwitchRequestState :=
  { request with revision := saturatingAdd request.revision 1 }

def overview : TelegramModelSwitchRequestState :=
  { request with compatibility := none, stage := .overview }.bumped

/-- `submit_telegram_thread_settings` up to the claim -/
def submission (compatibility : Option TelegramThreadSettingsCompatibility) : EditorOutcome :=
  let patch := request.settingsPatch compatibility
  if patch.isEmpty then .close else .submit patch

def openField (field : ThreadSettingsField) : EditorOutcome :=
  let request := { request with compatibility := none }
  match field with
  | .model => .save { request with modelPage := 1, stage := .model }.bumped
  | .effort => .save { request with stage := .effort }.bumped
  | .speed => .save { request with stage := .speed }.bumped

def modelPageTurned (direction : ThreadRouteDirection) : EditorOutcome :=
  if request.stage ≠ .model then .refuse
  else
    let totalPages := max ((request.catalog.length + telegramModelPageSize - 1) / telegramModelPageSize) 1
    let page :=
      match direction with
      | .prev => max (request.modelPage - 1) 1
      | .next => min (request.modelPage + 1) totalPages
    .save { request with modelPage := page }.bumped

def chooseModel (page index : Nat) : EditorOutcome :=
  if request.stage = .model ∧ request.modelPage = page then
    match request.catalog[(page - 1) * telegramModelPageSize + index]? with
    | none => .refuse
    | some choice => .save { request with draft.model := some choice.model }.overview
  else .refuse

def chooseEffort (index : Nat) : EditorOutcome :=
  if request.stage = .effort then
    match request.selectedModel.bind fun choice => choice.supportedEfforts[index]? with
    | none => .refuse
    | some effort => .save { request with draft.effort := some effort }.overview
  else .refuse

def chooseSpeed (fast : Bool) : EditorOutcome :=
  if request.stage ≠ .speed || (fast && !request.selectedModel.any (·.supportsFast)) then .refuse
  else .save { request with draft.speed := some (if fast then .fast else .standard) }.overview

/-- The one button that asks whether an apply is pending. -/
def apply : EditorOutcome :=
  if request.stage ≠ .overview || request.pendingApply.isSome then .refuse
  else
    let compatibility := request.settingsCompatibility
    if compatibility.resetEffort || compatibility.resetSpeed then
      .save { request with
        compatibility := some compatibility, stage := .compatibilityConfirmation }.bumped
    else request.submission none

def compatibilityConfirm (accept : Bool) : EditorOutcome :=
  if request.stage ≠ .compatibilityConfirmation then .refuse
  else if accept then request.submission (some (request.compatibility.getD ⟨false, false⟩))
  else .save request.overview

def outcome : EditorAction → EditorOutcome
  | .openField field => request.openField field
  | .modelPage direction => request.modelPageTurned direction
  | .chooseModel page index => request.chooseModel page index
  | .chooseEffort index => request.chooseEffort index
  | .chooseSpeed fast => request.chooseSpeed fast
  | .back => .save request.overview
  | .apply => request.apply
  | .compatibilityConfirm accept => request.compatibilityConfirm accept
  | .cancel => .close

/-- An editor that a handler writes back differs in what its buttons set: its identity, its pending
apply and its stale mark are those that the handler read. -/
structure WrittenBack (request saved : TelegramModelSwitchRequestState) : Prop where
  requestId : saved.requestId = request.requestId
  conversationKey : saved.conversationKey = request.conversationKey
  expectedThreadId : saved.expectedThreadId = request.expectedThreadId
  pendingApply : saved.pendingApply = request.pendingApply
  stale : saved.stale = request.stale
  revision : saved.revision = saturatingAdd request.revision 1

variable {request}

variable {saved : TelegramModelSwitchRequestState}

theorem openField_save {field : ThreadSettingsField} (h : request.openField field = .save saved) :
    request.WrittenBack saved := by
  cases field with
  | model | effort | speed => cases h; exact ⟨rfl, rfl, rfl, rfl, rfl, rfl⟩

theorem submission_ne_save {compatibility : Option TelegramThreadSettingsCompatibility}
    (h : request.submission compatibility = .save saved) : False := by
  unfold submission at h
  dsimp only at h
  split at h
  next => cases h
  next => cases h

theorem outcome_save {action : EditorAction} (h : request.outcome action = .save saved) :
    request.WrittenBack saved := by
  cases action with
  | openField field => exact openField_save h
  | modelPage direction =>
    simp only [outcome, modelPageTurned] at h
    split at h
    next => cases h
    next => cases h; exact ⟨rfl, rfl, rfl, rfl, rfl, rfl⟩
  | chooseModel page index =>
    simp only [outcome, chooseModel] at h
    split at h
    next =>
      split at h
      next => cases h
      next => cases h; exact ⟨rfl, rfl, rfl, rfl, rfl, rfl⟩
    next => cases h
  | chooseEffort index =>
    simp only [outcome, chooseEffort] at h
    split at h
    next =>
      split at h
      next => cases h
      next => cases h; exact ⟨rfl, rfl, rfl, rfl, rfl, rfl⟩
    next => cases h
  | chooseSpeed fast =>
    simp only [outcome, chooseSpeed] at h
    split at h
    next => cases h
    next => cases h; exact ⟨rfl, rfl, rfl, rfl, rfl, rfl⟩
  | back =>
    cases h
    exact ⟨rfl, rfl, rfl, rfl, rfl, rfl⟩
  | apply =>
    simp only [outcome, apply] at h
    split at h
    next => cases h
    next =>
      split at h
      next => cases h; exact ⟨rfl, rfl, rfl, rfl, rfl, rfl⟩
      next => exact (submission_ne_save h).elim
  | compatibilityConfirm accept =>
    simp only [outcome, compatibilityConfirm] at h
    split at h
    next => cases h
    next =>
      split at h
      next => exact (submission_ne_save h).elim
      next => cases h; exact ⟨rfl, rfl, rfl, rfl, rfl, rfl⟩
  | cancel => cases h

end TelegramModelSwitchRequestState

end MochiPort
