import MochiPort.RuntimeState
import MochiPort.RustText
import MochiPort.Whereabouts

/-! The outbound worker and the inbound messages of WeChat, which share the context tokens and the messages that
wait for a fresh one. -/

namespace MochiPort

open RustText

structure OutboundImage where
  path : String
  caption : Option String
  fallbackText : Option String
  deriving DecidableEq

/-- `approval` has the text that `approval_text` makes of the approval. -/
inductive OutboundPayload where
  | text (text : String)
  | approval (text : String)
  | image (image : OutboundImage)
  | imageGroup (images : List OutboundImage)
  deriving DecidableEq

/-- A message, with a ticket that tells it from others with the same contents. -/
structure OutboundMessage where
  ticket : Nat
  route : RouteTarget
  payload : OutboundPayload
  deriving DecidableEq

/-- The token of an inbound message, and how many had been stored when it was. -/
structure ContextToken where
  token : String
  captured : Nat
  deriving DecidableEq

/-- What a lookup of the token found, and how many tokens had been stored then. -/
structure TokenLookup where
  record : Option ContextToken
  lookedAt : Nat
  deriving DecidableEq

structure PendingOutbound where
  message : OutboundMessage
  triedAt : Nat
  deriving DecidableEq

/-- Where the worker stands with a message; `images` begins with the one that is being sent, `rest` does not have it. -/
inductive WechatSendStage where
  | channelEnabled
  | otherPlatform
  | checkWaiting
  | checkToken
  | textLookup (text : String)
  | textSend (text : String) (used : TokenLookup)
  | textForget (used : TokenLookup)
  | textRetry (used : TokenLookup)
  | imageLookup (image : OutboundImage) (rest : List OutboundImage)
  | captionLookup (used : TokenLookup) (rest : List OutboundImage)
  | captionSend (caption used : TokenLookup) (rest : List OutboundImage)
  | imageSend (used : TokenLookup) (rest : List OutboundImage)
  | forget (used : TokenLookup) (rest : List OutboundImage)
  | queue (triedAt : Nat) (rest : List OutboundImage)
  deriving DecidableEq

/-- Where the handling of an inbound message stands: its token is stored, or it gives back what was pending. -/
inductive WechatInboundStage where
  | replay (key : String)
  | enqueue (messages : List OutboundMessage)
  deriving DecidableEq

inductive OutboundFate where
  | sent
  | failed
  deriving DecidableEq

/-- A token that was removed from the store, and what the failed attempt had used. -/
structure DiscardedToken where
  record : Option ContextToken
  used : TokenLookup
  deriving DecidableEq

/-- The shared state, the worker, the inbound messages under way, and what has become of the messages. -/
structure WechatDelivery where
  contextTokens : String → Option ContextToken
  awaitingFreshContextToken : String → Bool
  pendingOutboundByPeer : String → List PendingOutbound
  channel : List OutboundMessage
  worker : Option (OutboundMessage × WechatSendStage)
  inbound : Table Nat WechatInboundStage
  finished : List (Nat × OutboundFate)
  submitted : Nat
  stored : Nat
  storedAt : String → Nat
  discarded : List DiscardedToken

inductive WechatStep where
  | submit (route : RouteTarget) (payload : OutboundPayload)
  | dequeue
  | checkAccount (enabled hasApi : Bool)
  | otherSent (fate : OutboundFate)
  | check
  | lookUp
  | send (result : Except String String)
  | forget
  | queue
  -- `saved` tells whether the state file could be written
  | receive (call : Nat) (accountId peerId contextToken : String) (saved : Bool)
  | replay (call : Nat)
  | enqueue (call : Nat)

def wechatRecoveryKey (accountId peerId : String) : String := accountId ++ ":" ++ peerId

def contextTokenKey (accountId peerId : String) : String := accountId ++ ":" ++ peerId

def wechatTextChunkChars : Nat := 3500

def wechatTextCanRetryWithoutToken (text : String) : Bool :=
  (trim text).toList.length ≤ wechatTextChunkChars

def isWechatContextTokenError (err : String) : Bool :=
  contains err "ret_minus_2" || contains err "ret=-2" || contains err "ret\":-2" ||
    contains err "errcode=-2" || contains err "code=-2" ||
    contains err "wechat image message context_token is missing"

/-- The text that `send_image_path` sends before an image. -/
def OutboundImage.leadingText (image : OutboundImage) : Option String :=
  ((image.caption.map trim).filter (· ≠ "")).or ((image.fallbackText.map trim).filter (· ≠ ""))

def OutboundPayload.goesWithoutToken : OutboundPayload → Bool
  | .text _ => true
  | .approval _ => true
  | .image _ => false
  | .imageGroup _ => false

def OutboundMessage.key (message : OutboundMessage) : String :=
  wechatRecoveryKey message.route.accountId message.route.chatId

def WechatSendStage.used : WechatSendStage → Option TokenLookup
  | .textForget used => some used
  | .forget used _ => some used
  | _ => none

def WechatSendStage.queued : WechatSendStage → Option (Nat × List OutboundImage)
  | .queue triedAt rest => some (triedAt, rest)
  | _ => none

namespace WechatDelivery

def start (restored : String → Option String) : WechatDelivery where
  contextTokens key := (restored key).map fun token => ⟨token, 0⟩
  awaitingFreshContextToken _ := false
  pendingOutboundByPeer _ := []
  channel := []
  worker := none
  inbound := ∅
  finished := []
  submitted := 0
  stored := 0
  storedAt _ := 0
  discarded := []

def goTo (s : WechatDelivery) (message : OutboundMessage) (stage : WechatSendStage) : WechatDelivery :=
  { s with worker := some (message, stage) }

def finish (s : WechatDelivery) (message : OutboundMessage) (fate : OutboundFate) : WechatDelivery :=
  { s with worker := none, finished := s.finished ++ [(message.ticket, fate)] }

def sendImages (s : WechatDelivery) (message : OutboundMessage) (images : List OutboundImage) (fate : OutboundFate) :
    WechatDelivery :=
  match images with
  | [] => s.finish message fate
  | image :: rest => s.goTo message (.imageLookup image rest)

def sendWechatOutbound (s : WechatDelivery) (message : OutboundMessage) : WechatDelivery :=
  match message.payload with
  | .text text => s.goTo message (.textLookup text)
  | .approval text => s.goTo message (.textLookup text)
  | .image image => s.goTo message (.imageLookup image [])
  | .imageGroup images => s.sendImages message images .sent

def lookUpToken (s : WechatDelivery) (message : OutboundMessage) : TokenLookup :=
  ⟨s.contextTokens (contextTokenKey message.route.accountId message.route.chatId), s.stored⟩

/-- `run_worker` before it sends: an account that is not active and a missing API are reported. -/
def checkAccount (s : WechatDelivery) (message : OutboundMessage) (enabled hasApi : Bool) : WechatDelivery :=
  if !enabled || !hasApi then s.finish message .failed
  else if message.route.platform = .wechat then s.goTo message .checkWaiting
  else s.goTo message .otherPlatform

/-- The two critical sections of `defer_wechat_outbound_if_waiting`. -/
def check (s : WechatDelivery) (message : OutboundMessage) : WechatSendStage → Option WechatDelivery
  | .checkWaiting =>
    if s.awaitingFreshContextToken message.key then
      if message.payload.goesWithoutToken then some (s.sendWechatOutbound message)
      else some (s.goTo message (.queue s.stored []))
    else some (s.goTo message .checkToken)
  | .checkToken =>
    if (s.lookUpToken message).record.isNone then
      if message.payload.goesWithoutToken then some (s.sendWechatOutbound message)
      else some (s.goTo message (.queue s.stored []))
    else some (s.sendWechatOutbound message)
  | _ => none

/-- An attempt looks up its token; `send_image_path` does so before it sends the text that leads the image, which is
an attempt with a lookup of its own. -/
def lookUp (s : WechatDelivery) (message : OutboundMessage) : WechatSendStage → Option WechatDelivery
  | .textLookup text => some (s.goTo message (.textSend text (s.lookUpToken message)))
  | .imageLookup image rest =>
    if image.leadingText.isSome then some (s.goTo message (.captionLookup (s.lookUpToken message) rest))
    else some (s.goTo message (.imageSend (s.lookUpToken message) rest))
  | .captionLookup used rest => some (s.goTo message (.captionSend (s.lookUpToken message) used rest))
  | _ => none

def send (s : WechatDelivery) (message : OutboundMessage) :
    WechatSendStage → Except String String → Option WechatDelivery
  | .textSend _ _, .ok _ => some (s.finish message .sent)
  | .textSend text used, .error err =>
    if isWechatContextTokenError err then
      if wechatTextCanRetryWithoutToken text then some (s.goTo message (.textForget used))
      else some (s.goTo message (.forget used []))
    else some (s.finish message .failed)
  | .textRetry _, .ok _ => some (s.finish message .sent)
  | .textRetry used, .error err =>
    if isWechatContextTokenError err then some (s.goTo message (.forget used []))
    else some (s.finish message .failed)
  | .captionSend _ used rest, .ok _ => some (s.goTo message (.imageSend used rest))
  | .captionSend caption _ rest, .error err =>
    if isWechatContextTokenError err then some (s.goTo message (.forget caption rest))
    else some (s.sendImages message rest .failed)
  | .imageSend _ rest, .ok _ => some (s.sendImages message rest .sent)
  | .imageSend used rest, .error err =>
    if isWechatContextTokenError err then some (s.goTo message (.forget used rest))
    else some (s.sendImages message rest .failed)
  | _, _ => none

def forgetContextToken (s : WechatDelivery) (message : OutboundMessage) (used : TokenLookup) : WechatDelivery :=
  let key := contextTokenKey message.route.accountId message.route.chatId
  { s with
    contextTokens := Function.update s.contextTokens key none
    discarded := s.discarded ++ [⟨s.contextTokens key, used⟩] }

/-- After a failed attempt; a short text is tried once more without a token. -/
def forget (s : WechatDelivery) (message : OutboundMessage) : WechatSendStage → Option WechatDelivery
  | .textForget used => some ((s.forgetContextToken message used).goTo message (.textRetry ⟨none, s.stored⟩))
  | .forget used rest => some ((s.forgetContextToken message used).goTo message (.queue used.lookedAt rest))
  | _ => none

/-- The message is pending, and the worker goes on with the images that are left of a group. -/
def queueWechatPendingOutbound (s : WechatDelivery) (message : OutboundMessage) :
    WechatSendStage → Option WechatDelivery
  | .queue triedAt rest =>
    let queued := { s with
      awaitingFreshContextToken := Function.update s.awaitingFreshContextToken message.key true
      pendingOutboundByPeer := Function.update s.pendingOutboundByPeer message.key
        (s.pendingOutboundByPeer message.key ++ [PendingOutbound.mk message triedAt]) }
    match rest with
    | [] => some { queued with worker := none }
    | image :: rest => some (queued.goTo message (.imageLookup image rest))
  | _ => none

/-- `remember_context_token`, which keeps the token also where it cannot save it; then the message is not handled. -/
def receive (s : WechatDelivery) (call : Nat) (accountId peerId contextToken : String) (saved : Bool) :
    WechatDelivery :=
  let token := trim contextToken
  let key := contextTokenKey accountId peerId
  let handled := s.inbound.insert call (.replay (wechatRecoveryKey accountId peerId))
  if token = "" then { s with inbound := handled }
  else
    { s with
      contextTokens := Function.update s.contextTokens key (some (ContextToken.mk token (s.stored + 1)))
      stored := s.stored + 1
      storedAt := Function.update s.storedAt key (s.stored + 1)
      inbound := if saved then handled else s.inbound }

/-- `replay_wechat_pending_for_peer` takes the messages that are pending and puts them on the channel. -/
def replay (s : WechatDelivery) (call : Nat) (key : String) : WechatDelivery :=
  { s with
    awaitingFreshContextToken := Function.update s.awaitingFreshContextToken key false
    pendingOutboundByPeer := Function.update s.pendingOutboundByPeer key []
    inbound := s.inbound.insert call (.enqueue ((s.pendingOutboundByPeer key).map PendingOutbound.message)) }

def step (s : WechatDelivery) : WechatStep → Option WechatDelivery
  | .submit route payload =>
    some { s with channel := s.channel ++ [OutboundMessage.mk s.submitted route payload], submitted := s.submitted + 1 }
  | .dequeue =>
    match s.worker, s.channel with
    | none, message :: rest => some { s with channel := rest, worker := some (message, .channelEnabled) }
    | _, _ => none
  | .checkAccount enabled hasApi =>
    match s.worker with
    | some (message, .channelEnabled) => some (s.checkAccount message enabled hasApi)
    | _ => none
  | .otherSent fate =>
    match s.worker with
    | some (message, .otherPlatform) => some (s.finish message fate)
    | _ => none
  | .check => s.worker.bind fun held => s.check held.1 held.2
  | .lookUp => s.worker.bind fun held => s.lookUp held.1 held.2
  | .send result => s.worker.bind fun held => s.send held.1 held.2 result
  | .forget => s.worker.bind fun held => s.forget held.1 held.2
  | .queue => s.worker.bind fun held => s.queueWechatPendingOutbound held.1 held.2
  | .receive call accountId peerId contextToken saved =>
    if s.inbound.lookup call = none then some (s.receive call accountId peerId contextToken saved) else none
  | .replay call =>
    match s.inbound.lookup call with
    | some (.replay key) => some (s.replay call key)
    | _ => none
  | .enqueue call =>
    match s.inbound.lookup call with
    | some (.enqueue (message :: rest)) =>
      some { s with channel := s.channel ++ [message], inbound := s.inbound.insert call (.enqueue rest) }
    | some (.enqueue []) => some { s with inbound := s.inbound.erase call }
    | _ => none

end WechatDelivery

end MochiPort
