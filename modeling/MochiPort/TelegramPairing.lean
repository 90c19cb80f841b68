import Mathlib.Algebra.Order.Group.Int
import MochiPort.EncryptedContent
import MochiPort.Runs
import MochiPort.Throttles

/-! Which private chats the polling of an account lets in. -/

namespace MochiPort

open RustText

def pairingHintText : String :=
  "该私聊尚未绑定。请在 MochiPort「聊天工具接入」页查看配对码，发送 /start <配对码> 或直接发送配对码完成绑定。"

def pairingLockoutText : String := "配对码尝试次数过多，请约 10 分钟后再试。"

def pairingMaxFailures : Nat := 5

def pairingCooldownMs : Int := 10 * 60 * 1000

structure PairingAttempts where
  failures : Table String Nat
  lockedUntilMs : Table String Int

namespace PairingAttempts

variable (attempts : PairingAttempts) (chatId : String)

def isLocked (nowMs : Int) : Bool := (attempts.lockedUntilMs.lookup chatId).any fun locked => decide (nowMs < locked)

/-- Whether the failure is the one that locks the chat. -/
def recordFailure (nowMs : Int) : Bool × PairingAttempts :=
  let failures := (attempts.failures.lookup chatId).getD 0 + 1
  if failures < pairingMaxFailures then (false, { attempts with failures := attempts.failures.insert chatId failures })
  else (true, ⟨attempts.failures.erase chatId, attempts.lockedUntilMs.insert chatId (nowMs + pairingCooldownMs)⟩)

def recordSuccess : PairingAttempts := ⟨attempts.failures.erase chatId, attempts.lockedUntilMs.erase chatId⟩

end PairingAttempts

def pairingTextMatches (messageText : Option String) (pairingCode : String) : Bool :=
  messageText.any fun text =>
    let text := trim text
    text = pairingCode || (stripStart text "/").any fun rest =>
      let command := rest.toList.takeWhile fun char => !isWhitespace char
      let payload := (rest.toList.dropWhile fun char => !isWhitespace char).drop 1
      eqIgnoreAsciiCase (String.ofList (command.takeWhile (· ≠ '@'))) "start" &&
        trim (String.ofList payload) = pairingCode

/-- An account of the configuration, as far as its chats are concerned. -/
structure TelegramChats where
  pairingCode : String
  allowedChatIds : List String

inductive TelegramChatAllowResult where
  | allowed
  | bound
  | denied
  | accountNotFound
  deriving DecidableEq

def chatAllowed (allowedChatIds : List String) (chatId : String) : Bool :=
  allowedChatIds.any fun allowed => decide (trim allowed = chatId)

/-- The account is the one that the lookups by its id find. -/
def allowTelegramChatId (always : Bool) (account : Option TelegramChats) (chatId : String) :
    TelegramChatAllowResult × Option TelegramChats :=
  match account with
  | none => (.accountNotFound, none)
  | some account =>
    if chatAllowed account.allowedChatIds chatId then (.allowed, some account)
    else if account.allowedChatIds ≠ [] ∧ always = false then (.denied, some account)
    else (.bound, some { account with allowedChatIds := account.allowedChatIds ++ [chatId] })

def ensureTelegramAllowedChatId := allowTelegramChatId false

def addTelegramAllowedChatId := allowTelegramChatId true

def telegramPairingCode (account : Option TelegramChats) : String :=
  (account.map fun account => trim account.pairingCode).getD ""

inductive TelegramChatAccessDecision where
  | allowed
  | denied
  | deniedWith (text : String)
  | ignored
  | consumed
  deriving DecidableEq

/-- The id of a chat, which is written without blanks. -/
structure ChatId where
  text : String
  trimmed : trim text = text

/-- A message that is to bind its chat, with the code that it was compared with. -/
structure PairingMessage where
  chat : ChatId
  text : Option String
  pairingCode : String

/-- The lists are those that the file has held and the one that the polling began with. For each chat the times of its
wrong texts are kept, and of each chat that was added the code that was in force then. -/
structure ChatAccess where
  config : Option TelegramChats
  lists : List (List String)
  access : List String
  attempts : PairingAttempts
  waiting : Option PairingMessage
  nowMs : Int
  wrong : String → List Int
  answers : List (String × TelegramChatAccessDecision)
  added : List (PairingMessage × String)

inductive ChatAccessStep where
  -- a callback has no text
  | message (chat : ChatId) (text : Option String) (nowMs : Int)
  | bind (saves : Bool)
  | rotate (pairingCode : String)
  | save (saves : Bool)

namespace ChatAccess

def start (config : Option TelegramChats) (access : List String) (nowMs : Int) : ChatAccess :=
  ⟨config, [access, (config.map TelegramChats.allowedChatIds).getD []], access, ⟨∅, ∅⟩, none, nowMs, fun _ => [], [], []⟩

variable (s : ChatAccess)

def configured : List String := (s.config.map TelegramChats.allowedChatIds).getD []

def answer (chat : ChatId) (decision : TelegramChatAccessDecision) : ChatAccess :=
  { s with answers := (chat.text, decision) :: s.answers }

def saveConfig : ChatAccess := { s with lists := s.configured :: s.lists }

def remember (chat : ChatId) : ChatAccess :=
  if chatAllowed s.access chat.text then s else { s with access := s.access ++ [chat.text] }

/-- A text that is not the pairing code. -/
def refuse (chat : ChatId) : ChatAccess :=
  let (locked, attempts) := s.attempts.recordFailure chat.text s.nowMs
  let wrong := Function.update s.wrong chat.text (s.nowMs :: s.wrong chat.text)
  { s with attempts := attempts, wrong := wrong }.answer chat
    (.deniedWith (if locked then pairingLockoutText else pairingHintText))

/-- `ensure_chat_allowed` of a private chat up to the lock under which it binds. -/
def ensureChatAllowed (chat : ChatId) (text : Option String) : ChatAccess :=
  let pairingCode := telegramPairingCode s.config
  if chatAllowed s.access chat.text then s.answer chat .allowed
  else if pairingCode ≠ "" then
    if text = none then s.answer chat (.deniedWith pairingHintText)
    else if s.attempts.isLocked chat.text s.nowMs then s.answer chat .ignored
    else if pairingTextMatches text pairingCode then { s with waiting := some ⟨chat, text, pairingCode⟩ }
    else s.refuse chat
  else if s.access ≠ [] then s.answer chat .denied
  else { s with waiting := some ⟨chat, text, pairingCode⟩ }

def allowResult (message : PairingMessage) : TelegramChatAllowResult × Option TelegramChats :=
  if message.pairingCode ≠ "" then addTelegramAllowedChatId s.config message.chat.text
  else ensureTelegramAllowedChatId s.config message.chat.text

def letIn (message : PairingMessage) : ChatAccess :=
  let s := s.remember message.chat
  if message.pairingCode ≠ "" then
    { s with attempts := s.attempts.recordSuccess message.chat.text }.answer message.chat .consumed
  else s.answer message.chat .allowed

/-- The configuration is changed before it is saved. -/
def bindChat (message : PairingMessage) (saves : Bool) : ChatAccess :=
  let (result, config) := s.allowResult message
  let s := { s with config := config, waiting := none }
  match result with
  | .allowed => s.letIn message
  | .bound =>
    let s := { s with added := (message, telegramPairingCode config) :: s.added }
    if saves then s.saveConfig.letIn message else s.answer message.chat .denied
  | .denied | .accountNotFound => s.answer message.chat .denied

def step : ChatAccessStep → Option ChatAccess
  | .message chat text nowMs =>
    if s.waiting.isSome then none else some ({ s with nowMs := nowMs }.ensureChatAllowed chat text)
  | .bind saves => s.waiting.map fun message => s.bindChat message saves
  | .rotate pairingCode =>
    some { s with config := s.config.map fun account => { account with pairingCode := pairingCode } }
  | .save saves => some (if saves then s.saveConfig else s)

/-- The chat of the message is about to be added. -/
def Adds (message : PairingMessage) : Prop := s.waiting = some message ∧ (s.allowResult message).1 = .bound

def FailsSave : ChatAccessStep → Prop
  | .bind saves => saves = false ∧ ∃ message, s.Adds message
  | .save saves => saves = false
  | _ => False

def Vouched (chatId : String) : Prop := ∃ list ∈ s.lists, chatAllowed list chatId = true

/-- What is promised of every state. -/
structure Guarded : Prop where
  granted : ∀ chatId decision, (chatId, decision) ∈ s.answers → decision = .allowed ∨ decision = .consumed →
    s.Vouched chatId
  matched : ∀ message code, (message, code) ∈ s.added → code ≠ "" → pairingTextMatches message.text code = true
  few : ∀ chatId (first : Int), ((s.wrong chatId).filter fun time =>
    decide (first ≤ time ∧ time < first + pairingCooldownMs)).length ≤ pairingMaxFailures

/-- The clock goes on, no chat is added without being saved, and the code that a chat was compared with is still in
force when it is added. -/
def Clean : ChatAccessStep → Prop
  | .message _ _ nowMs => s.nowMs ≤ nowMs
  | .bind saves => ∀ message, s.Adds message → saves = true ∧ telegramPairingCode s.config = message.pairingCode
  | _ => True

theorem chatAllowed_append (list : List String) (chat : ChatId) (chatId : String) :
    chatAllowed (list ++ [chat.text]) chatId = true ↔ chatAllowed list chatId = true ∨ chat.text = chatId := by
  simp [chatAllowed, chat.trimmed]

/-- An account has the chat already, or gets it, or is left as it is. -/
theorem allowResult_cases (message : PairingMessage) :
    (s.allowResult message = (.allowed, s.config) ∧ chatAllowed s.configured message.chat.text = true) ∨
      (∃ config, s.allowResult message = (.bound, config) ∧
        chatAllowed ((config.map TelegramChats.allowedChatIds).getD []) message.chat.text = true ∧
        telegramPairingCode config = telegramPairingCode s.config) ∨
      ∃ result, (result = .denied ∨ result = .accountNotFound) ∧ s.allowResult message = (result, s.config) := by
  have hcases : ∃ always, s.allowResult message = allowTelegramChatId always s.config message.chat.text := by
    unfold allowResult
    split
    next => exact ⟨true, rfl⟩
    next => exact ⟨false, rfl⟩
  obtain ⟨always, heq⟩ := hcases
  rw [heq, configured]
  cases s.config with
  | none => exact .inr (.inr ⟨_, .inr rfl, rfl⟩)
  | some account =>
    rw [allowTelegramChatId]
    split
    next hallowed => exact .inl ⟨rfl, hallowed⟩
    split
    next => exact .inr (.inr ⟨_, .inl rfl, rfl⟩)
    next => exact .inr (.inl ⟨_, rfl, (chatAllowed_append _ message.chat _).mpr (.inr rfl), rfl⟩)

def Throttled (chatId : String) : Prop :=
  Throttles.Throttled pairingMaxFailures pairingCooldownMs (s.wrong chatId)
    ((s.attempts.failures.lookup chatId).getD 0) (s.attempts.lockedUntilMs.lookup chatId) s.nowMs

structure Sound : Prop where
  configured : ∀ chatId, chatAllowed s.configured chatId = true → s.Vouched chatId
  access : ∀ chatId, chatAllowed s.access chatId = true → s.Vouched chatId
  granted : ∀ chatId decision, (chatId, decision) ∈ s.answers → decision = .allowed ∨ decision = .consumed →
    s.Vouched chatId
  waiting : ∀ message, s.waiting = some message → message.pairingCode ≠ "" →
    pairingTextMatches message.text message.pairingCode = true
  matched : ∀ message code, (message, code) ∈ s.added → code ≠ "" → pairingTextMatches message.text code = true
  spaced : ∀ chatId, Throttles.Spaced pairingMaxFailures pairingCooldownMs (s.wrong chatId)
  throttled : ∀ chatId, chatAllowed s.access chatId = false → s.Throttled chatId

variable {s} {t : ChatAccess} {chat : ChatId} {message : PairingMessage}

theorem start_sound (config : Option TelegramChats) (access : List String) (nowMs : Int) :
    (start config access nowMs).Sound where
  configured _ h := ⟨_, List.mem_cons_of_mem _ List.mem_cons_self, h⟩
  access _ h := ⟨_, List.mem_cons_self, h⟩
  granted _ _ h := absurd h List.not_mem_nil
  waiting := nofun
  matched _ _ h := absurd h List.not_mem_nil
  spaced _ := trivial
  throttled _ _ := ⟨trivial, nofun, Nat.zero_lt_succ 4, nofun⟩

variable (hs : s.Sound)
include hs

theorem Sound.answer {decision : TelegramChatAccessDecision}
    (h : decision = .allowed ∨ decision = .consumed → s.Vouched chat.text) : (s.answer chat decision).Sound := by
  refine { hs with granted := fun chatId other hm => ?_ }
  rcases List.mem_cons.mp hm with heq | hm
  · cases heq
    exact h
  · exact hs.granted chatId other hm

theorem Sound.saved (config : Option TelegramChats) {waiting : Option PairingMessage}
    {added : List (PairingMessage × String)}
    (hwaiting : ∀ message, waiting = some message → message.pairingCode ≠ "" →
      pairingTextMatches message.text message.pairingCode = true)
    (hmatched : ∀ message code, (message, code) ∈ added → code ≠ "" → pairingTextMatches message.text code = true) :
    (saveConfig { s with config := config, waiting := waiting, added := added }).Sound :=
  have hkept : ∀ chatId, s.Vouched chatId →
      (saveConfig { s with config := config, waiting := waiting, added := added }).Vouched chatId :=
    fun _ ⟨list, hm, hallowed⟩ => ⟨list, List.mem_cons_of_mem _ hm, hallowed⟩
  { hs with
    configured := fun _ h => ⟨_, List.mem_cons_self, h⟩
    access := fun chatId h => hkept chatId (hs.access chatId h)
    granted := fun chatId decision hm h => hkept chatId (hs.granted chatId decision hm h)
    waiting := hwaiting
    matched := hmatched }

theorem Sound.remember (hv : s.Vouched chat.text) :
    (s.remember chat).Sound ∧ (s.remember chat).Vouched chat.text ∧
      chatAllowed (s.remember chat).access chat.text = true := by
  unfold ChatAccess.remember
  split
  next hallowed => exact ⟨hs, hv, hallowed⟩
  next =>
    refine ⟨{ hs with access := fun chatId h => ?_, throttled := fun chatId h => ?_ }, hv,
      (chatAllowed_append s.access chat _).mpr (.inr rfl)⟩
    · rcases (chatAllowed_append s.access chat chatId).mp h with h | rfl
      · exact hs.access chatId h
      · exact hv
    · refine hs.throttled chatId (Bool.eq_false_iff.mpr fun hold => ?_)
      exact absurd ((chatAllowed_append s.access chat chatId).mpr (.inl hold)) (Bool.eq_false_iff.mp h)

theorem Sound.letIn (hv : s.Vouched message.chat.text) : (s.letIn message).Sound := by
  obtain ⟨hr, hv, hallowed⟩ := hs.remember hv
  unfold ChatAccess.letIn
  split
  next =>
    refine { hr.answer fun _ => hv with throttled := fun chatId h => ?_ }
    have hne : chatId ≠ message.chat.text := by
      rintro rfl
      exact absurd hallowed (Bool.eq_false_iff.mp h)
    have hold := hr.throttled chatId h
    simpa only [Throttled, ChatAccess.answer, PairingAttempts.recordSuccess, Table.lookup_erase_eq, if_neg hne] using hold
  next => exact hr.answer fun _ => hv

/-- The attempts of the other chats stay as they are. -/
theorem Sound.fail {attempts : PairingAttempts}
    (hthrottled : Throttles.Throttled pairingMaxFailures pairingCooldownMs (s.nowMs :: s.wrong chat.text)
      ((attempts.failures.lookup chat.text).getD 0) (attempts.lockedUntilMs.lookup chat.text) s.nowMs)
    (hothers : ∀ chatId ≠ chat.text, attempts.failures.lookup chatId = s.attempts.failures.lookup chatId ∧
      attempts.lockedUntilMs.lookup chatId = s.attempts.lockedUntilMs.lookup chatId) :
    Sound { s with
      attempts := attempts, wrong := Function.update s.wrong chat.text (s.nowMs :: s.wrong chat.text) } := by
  refine { hs with spaced := fun chatId => ?_, throttled := fun chatId h => ?_ }
  all_goals
    dsimp only [Throttled]
    rw [Function.update_apply]
    split
  next heq => exact hthrottled.spaced
  next => exact hs.spaced chatId
  next heq =>
    rw [heq]
    exact hthrottled
  next heq =>
    rw [(hothers chatId heq).1, (hothers chatId heq).2]
    exact hs.throttled chatId h

theorem Sound.refuse (hnew : chatAllowed s.access chat.text = false)
    (hunlocked : s.attempts.isLocked chat.text s.nowMs = false) : (s.refuse chat).Sound := by
  have hopen : ∀ opening, s.attempts.lockedUntilMs.lookup chat.text = some opening → opening ≤ s.nowMs := by
    intro opening h
    simpa [PairingAttempts.isLocked, h] using hunlocked
  have hold := hs.throttled chat.text hnew
  unfold ChatAccess.refuse PairingAttempts.recordFailure
  dsimp only
  split
  all_goals
    apply Sound.answer
  next hmore =>
    refine hs.fail ?_ fun chatId hne => ⟨?_, rfl⟩
    · rw [Table.lookup_insert_eq, if_pos rfl]
      exact hold.count hopen hmore
    · rw [Table.lookup_insert_eq, if_neg hne]
  next => simp
  next =>
    refine hs.fail ?_ fun chatId hne => ⟨?_, ?_⟩
    · rw [Table.lookup_erase_eq, if_pos rfl, Table.lookup_insert_eq, if_pos rfl]
      exact hold.close hopen
    · rw [Table.lookup_erase_eq, if_neg hne]
    · rw [Table.lookup_insert_eq, if_neg hne]
  next => simp

theorem Sound.ensureChatAllowed (text : Option String) : (s.ensureChatAllowed chat text).Sound := by
  unfold ChatAccess.ensureChatAllowed
  dsimp only
  split
  next hallowed => exact hs.answer fun _ => hs.access _ hallowed
  next hnew =>
    split
    next =>
      split
      next => exact hs.answer (by simp)
      split
      next => exact hs.answer (by simp)
      next hunlocked =>
        split
        next hmatch =>
          refine { hs with waiting := fun message h _ => ?_ }
          cases h
          exact hmatch
        next => exact hs.refuse (Bool.eq_false_iff.mpr hnew) (Bool.eq_false_iff.mpr hunlocked)
    next hcode =>
      split
      next => exact hs.answer (by simp)
      next =>
        refine { hs with waiting := fun message h hne => ?_ }
        cases h
        exact absurd hne hcode

theorem Sound.bindChat {saves : Bool} (hwaiting : s.waiting = some message) (hclean : s.Clean (.bind saves)) :
    (s.bindChat message saves).Sound := by
  have hidle : Sound { s with waiting := none } := { hs with waiting := nofun }
  rcases s.allowResult_cases message with ⟨hresult, hallowed⟩ | ⟨config, hresult, hallowed, hcode⟩ | ⟨_, hno, hresult⟩
  · rw [ChatAccess.bindChat, hresult]
    exact hidle.letIn (hs.configured _ hallowed)
  · obtain ⟨rfl, hforce⟩ := hclean message ⟨hwaiting, by rw [hresult]⟩
    rw [ChatAccess.bindChat, hresult]
    refine (hs.saved config (by simp) fun other code hm hne => ?_).letIn ⟨_, List.mem_cons_self, hallowed⟩
    rcases List.mem_cons.mp hm with heq | hm
    · cases heq
      rw [hcode, hforce] at hne ⊢
      exact hs.waiting message hwaiting hne
    · exact hs.matched other code hm hne
  · rw [ChatAccess.bindChat, hresult]
    rcases hno with rfl | rfl
    all_goals exact hidle.answer (by simp)

theorem step_sound {a : ChatAccessStep} (hclean : s.Clean a) (h : s.step a = some t) : t.Sound := by
  cases a with
  | message chat text nowMs =>
    obtain ⟨-, h⟩ := Option.ite_none_left_eq_some.mp h
    cases h
    have hlater : Sound { s with nowMs := nowMs } :=
      { hs with throttled := fun chatId h => (hs.throttled chatId h).later hclean }
    exact hlater.ensureChatAllowed text
  | bind saves =>
    obtain ⟨message, hwaiting, rfl⟩ := Option.map_eq_some_iff.mp h
    exact hs.bindChat hwaiting hclean
  | rotate pairingCode =>
    cases h
    refine { hs with configured := fun chatId hallowed => hs.configured chatId ?_ }
    rw [ChatAccess.configured, Option.map_map] at hallowed
    exact hallowed
  | save saves =>
    cases h
    split
    next => exact hs.saved s.config hs.waiting hs.matched
    next => exact hs

theorem Sound.guarded : s.Guarded :=
  ⟨hs.granted, hs.matched, fun chatId first => (hs.spaced chatId).length_filter_le first⟩

omit hs

/-- In every run of clean steps all promises hold, and a save that fails changes nothing. -/
theorem chat_access_guarded {config : Option TelegramChats} {access : List String} {nowMs : Int}
    {steps : List ChatAccessStep} (hclean : Runs.Meets step Clean (start config access nowMs) steps)
    (h : Runs.run step (start config access nowMs) steps = some t) :
    t.Guarded ∧ ∀ a u, t.FailsSave a → t.Clean a → t.step a = some u → u = t := by
  have hs : t.Sound :=
    Runs.run_invariant_of_meets Sound (fun _ _ _ hs hclean h => step_sound hs hclean h)
      (start_sound config access nowMs) hclean h
  refine ⟨hs.guarded, fun a u hfails hclean h => ?_⟩
  cases a with
  | message | rotate => exact hfails.elim
  | bind saves =>
    obtain ⟨rfl, message, hadds⟩ := hfails
    cases (hclean message hadds).1
  | save saves =>
    obtain rfl : saves = false := hfails
    exact (Option.some.inj h).symm

def pairedChat : ChatId := ⟨"1", by decide +kernel⟩

def pairing : ChatAccess := start (some ⟨"code", []⟩) [] 0

def pairingSteps : List ChatAccessStep := [.message pairedChat (some "/start code") 1, .bind true]

theorem paired_chat_guarded :
    ∃ t, Runs.run step pairing pairingSteps = some t ∧ t.answers = [("1", .consumed)] ∧ t.Guarded := by
  have hanswered : (Runs.run step pairing pairingSteps).map (·.answers) = some [("1", .consumed)] := by decide +kernel
  obtain ⟨t, hrun, hanswers⟩ := Option.map_eq_some_iff.mp hanswered
  have hcompared : (step pairing (.message pairedChat (some "/start code") 1)).map
      (fun s => (s.waiting.map (·.pairingCode), telegramPairingCode s.config)) = some (some "code", "code") := by
    decide +kernel
  have hclean : Runs.Meets step Clean pairing pairingSteps := by
    refine ⟨(by decide : (0 : Int) ≤ 1), fun s hs => ⟨fun message hadds => ⟨rfl, ?_⟩, fun _ _ => trivial⟩⟩
    rw [hs, Option.map_some, hadds.1] at hcompared
    obtain ⟨hcode, hforce⟩ := Prod.mk.inj (Option.some.inj hcompared)
    exact hforce.trans (Option.some.inj hcode).symm
  exact ⟨t, hrun, hanswers, (chat_access_guarded hclean hrun).1⟩

theorem unsaved_chat_consumed :
    ∃ t, Runs.run step pairing [.message pairedChat (some "code") 1, .bind false, .message pairedChat (some "code") 2,
      .bind false] = some t ∧ ¬t.Guarded := by
  have hmap : (Runs.run step pairing [.message pairedChat (some "code") 1, .bind false,
      .message pairedChat (some "code") 2, .bind false]).map (fun t => (t.answers, t.lists)) =
        some ([("1", .consumed), ("1", .denied)], [[], []]) := by
    decide +kernel
  obtain ⟨t, hrun, hstate⟩ := Option.map_eq_some_iff.mp hmap
  obtain ⟨hanswers, hlists⟩ := Prod.mk.inj hstate
  refine ⟨t, hrun, fun h => ?_⟩
  obtain ⟨list, hm, hallowed⟩ := h.granted "1" .consumed (hanswers ▸ List.mem_cons_self) (.inr rfl)
  rw [hlists] at hm
  obtain rfl : list = [] := by simpa using hm
  cases hallowed

end ChatAccess

end MochiPort
