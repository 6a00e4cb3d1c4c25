import ExchangeClient.Lib.Transition
import ExchangeClient.Websocketpp.Prepare

/-!
# The connection

`connection_impl.hpp`, for a client. The connection reacts to calls of the application and
to operations of the transport that complete, in any order; one handler runs at a time. A
connection also notes what has happened to it so far. No function reads these notes but
the handlers of the application, which may do anything that depends on the past.
-/

namespace ExchangeClient.Websocketpp

/-! ### Data -/

/-- `session::state`. -/
inductive SessionState where
  | connecting
  | opened
  | closing
  | closed
deriving DecidableEq, Repr

/-- `session::internal_state`, as far as a client gets. -/
inductive InternalState where
  | userInit
  | transportInit
  | writeHttpRequest
  | readHttpResponse
  | processConnection
deriving DecidableEq, Repr

inductive TerminateStatus where
  | failed
  | closed
deriving DecidableEq, Repr

/-- What a timer calls. -/
inductive TimerHandler where
  | openHandshakeTimeout
  | closeHandshakeTimeout
deriving DecidableEq, Repr

/-- A timer that has expired or has been cancelled still has to call its handler. -/
inductive TimerPhase where
  | waiting
  | expired
  | cancelled
  | done
deriving DecidableEq, Repr

structure Timer where
  handler : TimerHandler
  phase : TimerPhase
deriving DecidableEq, Repr

/-- It is too late to cancel a timer that has expired. -/
def Timer.cancel (t : Timer) : Timer :=
  if t.phase = .waiting then { t with phase := .cancelled } else t

/-- The calls of the handlers of the application. -/
inductive Event where
  | opened
  | message (msg : Message)
  | failed
  | closed
deriving DecidableEq

/-- What the application asks of a connection. -/
inductive Call where
  | send (op : Opcode) (payload : Bytes)
  | ping (payload : Bytes)
  | pong (payload : Bytes)
  | close (code : Close.Status) (reason : Bytes)
deriving DecidableEq

/-- `m_response` and what the processor finds in it: the parser with the number of bytes
it has used, the check of the handshake, and the negotiation of the extensions. -/
structure ResponseReader (ρ : Type) where
  consume : ρ → Bytes → Option (ρ × Nat)
  headersReady : ρ → Bool
  validate : ρ → Option ProcessorError
  negotiateExtensions : ρ → Option ProcessorError

/-- What a connection works with. The handlers of the application make the calls that
`handler` gives for the events so far, the last of which they handle. -/
structure Setting (ρ : Type) where
  reader : ResponseReader ρ
  request : Bytes
  rng : Nat → MaskingKey
  handler : List Event → List Call

structure CloseInfo where
  localCode : Close.Status
  localReason : Bytes
  remoteCode : Close.Status
  remoteReason : Bytes
  wasClean : Bool
deriving DecidableEq

structure Connection (ρ : Type) where
  state : SessionState
  internalState : InternalState
  response : ρ
  processor : Processor
  sendQueue : List Message
  sendBufferSize : Nat
  currentMsgs : List Message
  writeFlag : Bool
  closeInfo : CloseInfo
  ec : Option ErrorCode
  handshakeTimer : Option Nat
  /-- The masking keys drawn so far. -/
  drawn : Nat
  -- the operations of the transport that have not completed
  connects : Nat
  inits : Nat
  requestWrites : Nat
  responseReads : Nat
  frameReads : Nat
  frameWrites : Nat
  writeTasks : Nat
  shutdowns : List TerminateStatus
  timers : List Timer
  -- what has happened so far
  events : List Event
  received : List Bytes
  inbox : List Message
  accepted : List (MaskingKey × Outgoing)
  pushed : List Message
  written : List Message
  sent : Bytes

namespace Connection

variable {ρ : Type}

/-- A connection that is being connected. -/
def init (response : ρ) : Connection ρ where
  state := .connecting
  internalState := .userInit
  response := response
  processor := .init
  sendQueue := []
  sendBufferSize := 0
  currentMsgs := []
  writeFlag := false
  closeInfo := ⟨Close.abnormalClose, [], Close.abnormalClose, [], false⟩
  ec := none
  handshakeTimer := none
  drawn := 0
  connects := 1
  inits := 0
  requestWrites := 0
  responseReads := 0
  frameReads := 0
  frameWrites := 0
  writeTasks := 0
  shutdowns := []
  timers := []
  events := []
  received := []
  inbox := []
  accepted := []
  pushed := []
  written := []
  sent := []

/-! ### Ending -/

section Ending

variable (c : Connection ρ)

def setHandshakeTimer (handler : TimerHandler) : Connection ρ :=
  { c with
    handshakeTimer := some c.timers.length
    timers := c.timers ++ [⟨handler, .waiting⟩] }

/-- The handshake timer is cancelled and reset, if there is one. -/
def cancelHandshakeTimer : Connection ρ :=
  match c.handshakeTimer with
  | some i => { c with handshakeTimer := none, timers := c.timers.modify i Timer.cancel }
  | none => c

def asyncShutdown (tstat : TerminateStatus) : Connection ρ :=
  { c with state := .closed, shutdowns := c.shutdowns ++ [tstat] }

/-- What `terminate` notes about an error. -/
def noteError (c : Connection ρ) : Option ErrorCode → Connection ρ
  | some ec =>
      { c with
        ec := some ec
        closeInfo := { c.closeInfo with
          localCode := Close.abnormalClose
          localReason := ec.message } }
  | none => c

def terminate (ec : Option ErrorCode) : Connection ρ :=
  let c := c.cancelHandshakeTimer.noteError ec
  match c.state with
  | .connecting => c.asyncShutdown .failed
  | .opened => c.asyncShutdown .closed
  | .closing => c.asyncShutdown .closed
  | .closed => c

end Ending

/-! ### Writing -/

section Writing

variable (c : Connection ρ)

/-- The sum of the sizes that `m_send_buffer_size` counts. -/
def bufferSize (msgs : List Message) : Nat := (msgs.map fun msg => msg.payload.length).sum

def writePush (msg : Message) : Connection ρ :=
  { c with
    sendBufferSize := c.sendBufferSize + msg.payload.length
    sendQueue := c.sendQueue ++ [msg]
    pushed := c.pushed ++ [msg] }

/-- `dispatch` of `write_frame`. -/
def dispatchWriteFrame : Connection ρ := { c with writeTasks := c.writeTasks + 1 }

/-- A prepared message is pushed, and `write_frame` is dispatched unless a write is
outstanding. The masking key was drawn when the message was prepared. -/
def enqueue (key : MaskingKey) (o : Outgoing) (msg : Message) : Connection ρ :=
  let c := { c.writePush msg with drawn := c.drawn + 1, accepted := c.accepted ++ [(key, o)] }
  if c.writeFlag = false ∧ c.sendQueue ≠ [] then c.dispatchWriteFrame else c

/-- What `write_frame` takes off the queue: everything up to a message that is marked
terminal. -/
def batch : List Message → List Message × List Message
  | [] => ([], [])
  | msg :: queue =>
      if msg.terminal then ([msg], queue) else (msg :: (batch queue).1, (batch queue).2)

def writeFrame : Connection ρ :=
  if c.writeFlag then c
  else
    let (msgs, queue) := batch c.sendQueue
    let c := { c with
      currentMsgs := c.currentMsgs ++ msgs
      sendQueue := queue
      sendBufferSize := c.sendBufferSize - bufferSize msgs }
    if c.currentMsgs = [] then c
    else { c with
      writeFlag := true
      frameWrites := c.frameWrites + 1
      written := c.written ++ c.currentMsgs
      sent := c.sent ++ c.currentMsgs.flatMap Message.wire }

/-- There has to be a message that was written: its terminal flag is read first. -/
def handleWriteFrame (ec : Option ErrorCode) : Option (Connection ρ) :=
  c.currentMsgs.getLast?.map fun last =>
    let c := { c with currentMsgs := [] }
    match ec with
    | some ec => c.terminate (some ec)
    | none =>
        if last.terminal then c.terminate none
        else
          let c := { c with writeFlag := false }
          if c.sendQueue ≠ [] then c.dispatchWriteFrame else c

end Writing

/-! ### Sending -/

section Sending

variable (S : Setting ρ) (c : Connection ρ)

/-- A frame made ready by the processor, with the next masking key. -/
def prepare (o : Outgoing) : Except ProcessorError Message :=
  o.prepare .client (S.rng c.drawn)

/-- `send`, `ping` and `pong`: what they have in common. -/
def push (o : Outgoing) : Option ErrorCode × Connection ρ :=
  if c.state ≠ .opened then (some (.library .invalidState), c)
  else
    match c.prepare S o with
    | .error ec => (some (.processor ec), c)
    | .ok out => (none, c.enqueue (S.rng c.drawn) o out)

def send (op : Opcode) (payload : Bytes) : Option ErrorCode × Connection ρ :=
  c.push S (.data { getMessage op with payload := payload })

def ping (payload : Bytes) : Option ErrorCode × Connection ρ := c.push S (.ping payload)

def pong (payload : Bytes) : Option ErrorCode × Connection ρ := c.push S (.pong payload)

/-- The code and the reason that `send_close_frame` sends. -/
def closeWith (info : CloseInfo) (code : Close.Status) (reason : Bytes) (ack : Bool) :
    Close.Status × Bytes :=
  if code ≠ Close.blank then (code, reason)
  else if ack = false then (Close.noStatus, [])
  else if info.remoteCode = Close.noStatus then (Close.normal, [])
  else (info.remoteCode, info.remoteReason)

/-- `send_close_frame`. The code and the reason are noted even if no frame can be made. -/
def sendCloseFrame (code : Close.Status) (reason : Bytes) (ack terminal : Bool) :
    Option ErrorCode × Connection ρ :=
  let (code, reason) := closeWith c.closeInfo code reason ack
  let c := { c with
    closeInfo := { c.closeInfo with localCode := code, localReason := reason } }
  match c.prepare S (.close code reason) with
  | .error ec => (some (.processor ec), c)
  | .ok out =>
      let out := if terminal then { out with terminal := true } else out
      let c := { c with
        state := .closing
        closeInfo := { c.closeInfo with wasClean := ack || c.closeInfo.wasClean } }
      (none, (c.setHandshakeTimer .closeHandshakeTimeout).enqueue (S.rng c.drawn)
        (.close code reason) out)

/-- A client's acknowledgement does not end the connection. -/
def sendCloseAck (code : Close.Status) (reason : Bytes) : Option ErrorCode × Connection ρ :=
  c.sendCloseFrame S code reason true false

/-- The reason is cut to what a close frame can carry. -/
def close (code : Close.Status) (reason : Bytes) : Option ErrorCode × Connection ρ :=
  if c.state ≠ .opened then (some (.library .invalidState), c)
  else c.sendCloseFrame S code (reason.take 123) false (Close.terminal code)

/-- A call of the application. -/
def perform : Call → Option ErrorCode × Connection ρ
  | .send op payload => c.send S op payload
  | .ping payload => c.ping S payload
  | .pong payload => c.pong S payload
  | .close code reason => c.close S code reason

/-- A handler of the application is called, and makes its calls. -/
def notify (e : Event) : Connection ρ :=
  let events := c.events ++ [e]
  (S.handler events).foldl (fun c call => (c.perform S call).2) { c with events := events }

end Sending

/-! ### Receiving -/

section Receiving

variable (S : Setting ρ) (c : Connection ρ)

/-- A close frame that has been received, `m_state` not being closed. -/
def processClose (payload : Bytes) : Connection ρ :=
  let (code, badCode) := Close.extractCode payload
  let c := { c with closeInfo := { c.closeInfo with remoteCode := code } }
  if badCode.isSome then
    (c.sendCloseAck S Close.protocolError (ascii "Invalid close code")).2
  else
    let (reason, badReason) := Close.extractReason payload
    let c := { c with closeInfo := { c.closeInfo with remoteReason := reason } }
    if badReason.isSome then
      (c.sendCloseAck S Close.protocolError (ascii "Invalid close reason")).2
    else if c.state = .opened then (c.sendCloseAck S Close.blank []).2
    else if c.state = .closing ∧ c.closeInfo.wasClean = false then
      { c with closeInfo := { c.closeInfo with wasClean := true } }
    else c

/-- `process_control_frame`. There is no handler for pings and pongs. -/
def processControlFrame (msg : Message) : Connection ρ :=
  if c.state = .closed then c
  else if msg.opcode ≠ .close ∧ c.state ≠ .opened then c
  else if msg.opcode = .ping then (c.pong S msg.payload).2
  else if msg.opcode = .close then c.processClose S msg.payload
  else c

/-- A message that the processor has completed. -/
def dispatch (msg : Message) (c : Connection ρ) : Connection ρ :=
  let c := { c with inbox := c.inbox ++ [msg] }
  if msg.opcode.isControl = false then
    if c.state ≠ .opened then c else c.notify S (.message msg)
  else c.processControlFrame S msg

/-- `async_read_at_least` with `handle_read_frame`. -/
def readFrame : Connection ρ := { c with frameReads := c.frameReads + 1 }

/-- `handle_read_frame` after an error. -/
def handleReadError (ec : ErrorCode) : Connection ρ :=
  if ec = .transport .eof ∧ c.state = .closed then c
  else if ec = .transport .eof ∧ c.state = .closing then c.terminate none
  else if ec = .library .invalidState ∧ c.state = .closed then c
  else c.terminate (some ec)

/-- `handle_read_frame` after the bytes have gone through the processor. -/
def afterFrames (c : Connection ρ) : Except ProcessorError Processor → Connection ρ
  | .ok p => { c with processor := p }.readFrame
  | .error ec =>
      match c.close S ec.toWs ec.message with
      | (some closeEc, c) => c.terminate (some closeEc)
      | (none, c) => c

/-- `handle_read_frame`, where bytes have been read. -/
def handleFrames (buf : Bytes) : Option (Connection ρ) :=
  let c := { c with received := c.received ++ [buf] }
  (readFrames .client (dispatch S) c.processor buf c).map fun result =>
    result.1.afterFrames S result.2

def handleReadFrame : Except ErrorCode Bytes → Option (Connection ρ)
  | .error ec => some (c.handleReadError ec)
  | .ok buf =>
      if c.internalState ≠ .processConnection then
        some (c.handleReadError (.library .invalidState))
      else c.handleFrames S buf

end Receiving

/-! ### The opening handshake -/

section Opening

variable (S : Setting ρ) (c : Connection ρ)

/-- `handle_connect` and `start`. -/
def handleConnect (c : Connection ρ) : Option TransportError → Connection ρ
  | some ec => c.terminate (some (.transport ec))
  | none =>
      if c.internalState ≠ .userInit then c.terminate (some (.library .invalidState))
      else { c with internalState := .transportInit, inits := c.inits + 1 }

/-- The timer is set before the request is written. -/
def sendHttpRequest : Connection ρ :=
  { c.setHandshakeTimer .openHandshakeTimeout with
    requestWrites := c.requestWrites + 1
    sent := c.sent ++ S.request }

def handleTransportInit (ec : Option TransportError) : Connection ρ :=
  if c.internalState ≠ .transportInit then c.terminate (some (.library .invalidState))
  else
    match ec with
    | some ec => c.terminate (some (.transport ec))
    | none => { c with internalState := .writeHttpRequest, processor := .init }.sendHttpRequest S

/-- What a handler of the opening handshake does about its error code and the state of the
connection: it returns, it terminates the connection, or it goes on. -/
inductive Check where
  | ignore
  | refuse (ec : ErrorCode)
  | proceed

def check (expected : InternalState) (ec : Option ErrorCode) : Check :=
  match ec with
  | some ec => if ec = .transport .eof ∧ c.state = .closed then .ignore else .refuse ec
  | none =>
      match c.state with
      | .connecting =>
          if c.internalState ≠ expected then .refuse (.library .invalidState) else .proceed
      | .closed => .ignore
      | _ => .refuse (.library .invalidState)

def readResponse : Connection ρ := { c with responseReads := c.responseReads + 1 }

def handleSendHttpRequest (ec : Option ErrorCode) : Connection ρ :=
  match c.check .writeHttpRequest ec with
  | .ignore => c
  | .refuse ec => c.terminate (some ec)
  | .proceed => { c with internalState := .readHttpResponse }.readResponse

/-- The answer of the server is complete. A failed negotiation of the extensions
terminates the connection, and then it is opened all the same. -/
def openConnection (rest : Bytes) : Option (Connection ρ) :=
  let c :=
    if (S.reader.negotiateExtensions c.response).isSome then
      c.terminate (some (.library .extensionNegFailed))
    else c
  let c := { c with internalState := .processConnection, state := .opened }
  (c.notify S .opened).handleReadFrame S (.ok rest)

/-- `handle_read_http_response`, where bytes have been read. -/
def handleResponse (buf : Bytes) : Option (Connection ρ) :=
  match S.reader.consume c.response buf with
  | none => some (c.terminate (some (.library .general)))
  | some (response, processed) =>
      let c := { c with response := response }
      if S.reader.headersReady response then
        let c := c.cancelHandshakeTimer
        match S.reader.validate response with
        | some ec => some (c.terminate (some (.processor ec)))
        | none => c.openConnection S (buf.drop processed)
      else some c.readResponse

def handleReadHttpResponse (result : Except ErrorCode Bytes) : Option (Connection ρ) :=
  match result with
  | .error ec =>
      match c.check .readHttpResponse (some ec) with
      | .refuse ec => some (c.terminate (some ec))
      | _ => some c
  | .ok buf =>
      match c.check .readHttpResponse none with
      | .ignore => some c
      | .refuse ec => some (c.terminate (some ec))
      | .proceed => c.handleResponse S buf

end Opening

/-! ### The system -/

/-- What can happen next. The application calls, or an operation of the transport
completes: with an error, or with the bytes that have been read. A timer expires first and
calls its handler later. -/
inductive Action where
  | call (call : Call)
  | connected (ec : Option TransportError)
  | initialized (ec : Option TransportError)
  | wroteRequest (ec : Option TransportError)
  | readResponse (result : Except TransportError Bytes)
  | readFrame (result : Except TransportError Bytes)
  | writeFrame
  | wroteFrames (ec : Option TransportError)
  | expire (timer : Nat)
  | fire (timer : Nat)
  | shutdown (tstat : TerminateStatus)

section System

variable (S : Setting ρ) (c : Connection ρ)

/-- `config::connection_read_buffer_size`. -/
def readBufferSize : Nat := 16384

/-- A read transfers a byte at least, and no more than the buffer holds. -/
def Transferable : Except TransportError Bytes → Prop
  | .ok buf => 1 ≤ buf.length ∧ buf.length ≤ readBufferSize
  | .error _ => True

instance : DecidablePred Transferable
  | .ok _ => inferInstanceAs (Decidable (_ ∧ _))
  | .error _ => inferInstanceAs (Decidable True)

def handleTimeout : TimerHandler → Connection ρ
  | .openHandshakeTimeout => c.terminate (some (.library .openHandshakeTimeout))
  | .closeHandshakeTimeout => c.terminate (some (.library .closeHandshakeTimeout))

def handleTerminate : TerminateStatus → Connection ρ
  | .failed => c.notify S .failed
  | .closed => c.notify S .closed

/-- The handler of a cancelled timer does nothing. -/
def fire (i : Nat) : Option (Connection ρ) :=
  c.timers[i]?.bind fun t =>
    let c := { c with timers := c.timers.set i { t with phase := .done } }
    match t.phase with
    | .expired => some (c.handleTimeout t.handler)
    | .cancelled => some c
    | _ => none

def expire (i : Nat) : Option (Connection ρ) :=
  c.timers[i]?.bind fun t =>
    if t.phase = .waiting then
      some { c with timers := c.timers.set i { t with phase := .expired } }
    else none

/-- One action, where it can happen. -/
def step : Action → Option (Connection ρ)
  | .call call => some (c.perform S call).2
  | .connected ec =>
      if 0 < c.connects then some ({ c with connects := c.connects - 1 }.handleConnect ec)
      else none
  | .initialized ec =>
      if 0 < c.inits then some ({ c with inits := c.inits - 1 }.handleTransportInit S ec)
      else none
  | .wroteRequest ec =>
      if 0 < c.requestWrites then
        some ({ c with requestWrites := c.requestWrites - 1 }.handleSendHttpRequest
          (ec.map .transport))
      else none
  | .readResponse result =>
      if 0 < c.responseReads ∧ Transferable result then
        { c with responseReads := c.responseReads - 1 }.handleReadHttpResponse S
          (result.mapError .transport)
      else none
  | .readFrame result =>
      if 0 < c.frameReads ∧ Transferable result then
        { c with frameReads := c.frameReads - 1 }.handleReadFrame S (result.mapError .transport)
      else none
  | .writeFrame =>
      if 0 < c.writeTasks then some { c with writeTasks := c.writeTasks - 1 }.writeFrame else none
  | .wroteFrames ec =>
      if 0 < c.frameWrites then
        { c with frameWrites := c.frameWrites - 1 }.handleWriteFrame (ec.map .transport)
      else none
  | .expire i => c.expire i
  | .fire i => c.fire i
  | .shutdown tstat =>
      if tstat ∈ c.shutdowns then
        some ({ c with shutdowns := c.shutdowns.erase tstat }.handleTerminate S tstat)
      else none

def run : Connection ρ → List Action → Option (Connection ρ) := Transition.follow (step S)

end System

end Connection

/-! ### A sample -/

/-- Where the first empty line ends. -/
def headEnd : Bytes → Option Nat
  | [] => none
  | b :: rest =>
      if (ascii "\r\n\r\n").isPrefixOf (b :: rest) then some 4 else (headEnd rest).map (· + 1)

/-- A reader of a response that looks for its end and for the status. -/
def ResponseReader.sample : ResponseReader Bytes where
  consume response buf :=
    match headEnd (response ++ buf) with
    | some n => some ((response ++ buf).take n, n - response.length)
    | none => some (response ++ buf, buf.length)
  headersReady response := (headEnd response).isSome
  validate response :=
    if (ascii "HTTP/1.1 101 ").isPrefixOf response then none else some .invalidHttpStatus
  negotiateExtensions _ := none

/-- A connection on which the open handler sends one text. -/
def Setting.sample : Setting Bytes where
  reader := .sample
  request := ascii "GET / HTTP/1.1\r\nHost: ftx.com\r\nConnection: Upgrade\r\n" ++
    ascii "Upgrade: websocket\r\nSec-WebSocket-Version: 13\r\n" ++
    ascii "Sec-WebSocket-Key: dGhlIHNhbXBsZSBub25jZQ==\r\n\r\n"
  rng _ := ⟨0x78563412⟩
  handler events :=
    match events.getLast? with
    | some .opened => [.send .text (ascii "\x7b\x7d")]
    | _ => []

namespace Connection

def sampleResponse : Bytes :=
  ascii "HTTP/1.1 101 Switching Protocols\r\nUpgrade: websocket\r\nConnection: Upgrade\r\n" ++
    ascii "Sec-WebSocket-Accept: s3pPLMBiTxaQ9kYGzzhZRbK+xOo=\r\n\r\n"

/-- The server answers, and sends a ping and the text `hi`. -/
def sampleActions : List Action :=
  [.connected none, .initialized none, .wroteRequest none, .readResponse (.ok sampleResponse),
    .writeFrame, .wroteFrames none, .readFrame (.ok [0x89, 0x01, 0x61, 0x81, 0x02, 0x68, 0x69])]

def sampleRun : Connection Bytes := (run .sample (init []) sampleActions).get (by decide +kernel)

theorem run_sampleActions : run .sample (init []) sampleActions = some sampleRun :=
  Option.some_get _ |>.symm

/-- Then the server closes the connection. -/
def sampleClose : Action := .readFrame (.ok [0x88, 0x02, 0x03, 0xE8])

def closingRun : Connection Bytes := (step .sample sampleRun sampleClose).get (by decide +kernel)

theorem step_sampleClose : step .sample sampleRun sampleClose = some closingRun :=
  Option.some_get _ |>.symm

theorem run_closing : run .sample (init []) (sampleActions ++ [sampleClose]) = some closingRun :=
  Transition.follow_append run_sampleActions
    (Transition.follow_cons.mpr ⟨closingRun, step_sampleClose, rfl⟩)

/-- Instead the server sends a frame that is masked. -/
def sampleMasked : Action := .readFrame (.ok [0x81, 0x80, 0x01, 0x02, 0x03, 0x04])

def refusedRun : Connection Bytes := (step .sample sampleRun sampleMasked).get (by decide +kernel)

theorem run_refused : run .sample (init []) (sampleActions ++ [sampleMasked]) = some refusedRun :=
  Transition.follow_append run_sampleActions
    (Transition.follow_cons.mpr ⟨refusedRun, Option.some_get _ |>.symm, rfl⟩)

-- they are evaluated by the kernel only
attribute [irreducible] sampleRun closingRun refusedRun

end Connection

end ExchangeClient.Websocketpp
