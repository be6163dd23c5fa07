import SmsGateway.At.Parser
import SmsGateway.At.Protocol
import SmsGateway.Lib.Program

/-! The worker task of the AT engine (`at_engine.c`). -/

namespace SmsGateway.At

open Lib

def maxCommandLength : Nat := 192

def maxExpectedPrefixes : Nat := 8

def maxResponseBytes : Nat := 2048

def maxResponseLines : Nat := 24

def maxUrcLength : Nat := 512

def maxFinalLength : Nat := 128

def defaultTimeoutMs : UInt32 := 3000

/-- `at_request_t`. -/
structure Request where
  command : CStr
  expectedPrefixes : List CStr
  timeoutMs : UInt32
  maxAttempts : UInt8
  retryDelayMs : UInt32
  retryPolicy : UInt32
  waitForPrompt : Bool
  promptPayload : List UInt8
  deriving DecidableEq, Repr

/-- `valid_request`. -/
def Request.valid (request : Request) : Bool :=
  decide (0 < request.command.length) && decide (request.command.length ≤ maxCommandLength) &&
    !request.command.bytes.contains carriageReturn && !request.command.bytes.contains lineFeed &&
    decide (request.expectedPrefixes.length ≤ maxExpectedPrefixes) &&
    request.waitForPrompt == !request.promptPayload.isEmpty

/-- `at_response_t`, the captured lines one by one. -/
structure Response where
  result : AtResult
  errorCode : Int
  attempts : UInt8
  truncated : Bool
  finalLine : CStr
  lines : List CStr
  deriving DecidableEq, Repr

namespace Response

/-- `response_reset`. -/
def reset : Response := ⟨.protocolError, -1, 0, false, .empty, []⟩

/-- `data_length`: every line is stored with its terminator. -/
def dataLength (response : Response) : Nat :=
  (response.lines.map fun line => line.length + 1).sum

/-- `response_capture_final`. -/
def captureFinal (response : Response) (line : CStr) : Response :=
  { response with
    finalLine := line.truncate (maxFinalLength - 1)
    truncated := response.truncated || decide (maxFinalLength ≤ line.length) }

/-- `response_capture_line`. -/
def captureLine (response : Response) (line : CStr) : Response :=
  if maxResponseLines ≤ response.lines.length ∨
      maxResponseBytes < response.dataLength + line.length + 1 then
    { response with truncated := true }
  else { response with lines := response.lines ++ [line] }

end Response

/-- `rx_event_t`. -/
inductive RxEvent where
  | data (bytes : List UInt8)
  | transportLost
  | cancel
  deriving DecidableEq, Repr

/-- What the worker asks of its surroundings. `token` asks nothing: it only makes
the tokens that `process_token` is called with part of a run. -/
inductive AtCall where
  | token (token : Token)
  | queueUrc (line : CStr)
  | isReady
  | write (bytes : List UInt8)
  | overflowEpoch
  | transportLostEpoch
  | cancelEpoch
  | time
  | receiveRx (wait : Bool)
  | receiveRequest
  | complete (response : Response)
  deriving DecidableEq, Repr

@[reducible] def AtCall.Reply : AtCall → Type
  | .token _ | .complete _ => Unit
  | .queueUrc _ | .isReady => Bool
  | .write _ => Except EspErr Unit
  | .overflowEpoch | .transportLostEpoch | .cancelEpoch => UInt32
  | .time => Int
  | .receiveRx _ => Option RxEvent
  | .receiveRequest => Option Request

abbrev AtM := Prog AtCall AtCall.Reply

/-- `queue_urc`; a full queue drops the line. -/
def queueUrc (line : CStr) : AtM Unit :=
  if maxUrcLength < line.length then pure ()
  else do
    let _ ← Prog.send (AtCall.queueUrc line)
    pure ()

def mapFinalKind : FinalKind → AtResult
  | .ok => .ok
  | .error => .error
  | .cmeError => .cmeError
  | .cmsError => .cmsError
  | .none => .protocolError

/-- `transaction_ctx_t` without the parser. -/
structure Transaction where
  request : Request
  response : Response
  done : Bool
  payloadSent : Bool
  router : Router
  deriving DecidableEq, Repr

/-- What `process_token` does with a line. -/
inductive Handling where
  | queued
  | echo
  | completed
  | captured
  deriving DecidableEq, Repr

/-- The result of a final line: an `OK` before the payload was sent is none. -/
def Transaction.complete (transaction : Transaction) (line : CStr) : Transaction :=
  let final := finalStatus line
  let response := transaction.response.captureFinal line
  if final.kind = .ok ∧ transaction.request.waitForPrompt ∧ ¬ transaction.payloadSent then
    { transaction with response := { response with result := .protocolError }, done := true }
  else
    { transaction with
      response := { response with
        result := mapFinalKind final.kind
        errorCode := final.errorCode }
      done := true }

/-- `process_token` on a line. The echo of the command is dropped before the line is
routed, and lines are routed before final results are looked for. -/
def handleLine (line : CStr) : Option Transaction → Handling × Option Transaction
  | none => (.queued, none)
  | some transaction =>
      if transaction.done then (.queued, some transaction)
      else if line = transaction.request.command then (.echo, some transaction)
      else
        match transaction.router.routeLine line transaction.request.expectedPrefixes with
        | (.urc, router) => (.queued, some { transaction with router := router })
        | (.response, _) =>
            if (finalStatus line).kind ≠ .none then (.completed, some (transaction.complete line))
            else
              (.captured, some { transaction with
                response := transaction.response.captureLine line })

/-- `process_token` on an overflow. -/
def Transaction.overflow (transaction : Transaction) : Transaction :=
  { transaction with
    response := { transaction.response with result := .protocolError, truncated := true }
    done := true }

/-- `process_token` on a prompt that the request waits for. -/
def sendPayload (parser : Parser) (transaction : Transaction) :
    AtM (Parser × Option Transaction) := do
  match ← Prog.send (AtCall.write transaction.request.promptPayload) with
  | .error _ =>
      pure (parser.setPromptEnabled false, some { transaction with
        response := { transaction.response with result := .transportError }
        done := true })
  | .ok () =>
      pure (parser.setPromptEnabled false, some { transaction with payloadSent := true })

def handleToken : Token → Parser × Option Transaction → AtM (Parser × Option Transaction)
  | .lineOverflow, (parser, transaction) => pure (parser, transaction.map Transaction.overflow)
  | .prompt, (parser, some transaction) =>
      if transaction.request.waitForPrompt then sendPayload parser transaction
      else do
        queueUrc (.text ">")
        pure (parser, some transaction)
  | .prompt, (parser, none) => do
      queueUrc (.text ">")
      pure (parser, none)
  | .line bytes, (parser, transaction) =>
      let line := CStr.ofBytes bytes
      match handleLine line transaction with
      | (.queued, after) => do
          queueUrc line
          pure (parser, after)
      | (_, after) => pure (parser, after)

/-- `process_token`; without a transaction the traffic is idle. -/
def processToken (token : Token) (state : Parser × Option Transaction) :
    AtM (Parser × Option Transaction) := do
  Prog.send (AtCall.token token)
  handleToken token state

def retryOnTimeout : UInt32 := 1

def retryOnError : UInt32 := 2

def retryOnCmeError : UInt32 := 4

def retryOnCmsError : UInt32 := 8

def retryOnTransportError : UInt32 := 16

def shouldRetry (result : AtResult) (policy : UInt32) : Bool :=
  match result with
  | .timeout => policy &&& retryOnTimeout != 0
  | .error => policy &&& retryOnError != 0
  | .cmeError => policy &&& retryOnCmeError != 0
  | .cmsError => policy &&& retryOnCmsError != 0
  | .transportError | .transportUnavailable => policy &&& retryOnTransportError != 0
  | _ => false

def sendCommand (request : Request) : AtM (Except EspErr Unit) := do
  if ← Prog.send AtCall.isReady then
    Prog.send (AtCall.write (request.command.bytes ++ [carriageReturn]))
  else pure (.error .invalidState)

/-- The local variables of `execute_attempt` in its loop. -/
structure Attempt where
  overflowEpoch : UInt32
  lostEpoch : UInt32
  cancelEpoch : UInt32
  deadlineUs : Int
  parser : Parser
  transaction : Transaction
  deriving DecidableEq, Repr

def Request.timeoutUs (request : Request) : Int :=
  (if request.timeoutMs = 0 then defaultTimeoutMs else request.timeoutMs).toNat * 1000

/-- `execute_attempt` before its loop. -/
def beginAttempt (request : Request) (response : Response) (parser : Parser) :
    AtM (Except AtResult Attempt) := do
  let overflowEpoch ← Prog.send AtCall.overflowEpoch
  let lostEpoch ← Prog.send AtCall.transportLostEpoch
  let cancelEpoch ← Prog.send AtCall.cancelEpoch
  match ← sendCommand request with
  | .error e =>
      pure (.error (if e = .invalidState then .transportUnavailable else .transportError))
  | .ok () =>
      let now ← Prog.send AtCall.time
      pure (.ok {
        overflowEpoch
        lostEpoch
        cancelEpoch
        deadlineUs := now + request.timeoutUs
        parser := parser.setPromptEnabled request.waitForPrompt
        transaction := ⟨request, response, false, false, .init⟩ })

/-- A chunk of the modem's answer. -/
def Attempt.feed (attempt : Attempt) (bytes : List UInt8) : AtM Attempt := do
  let after ← Parser.feed processToken bytes (attempt.parser, some attempt.transaction)
  pure { attempt with parser := after.1, transaction := after.2.getD attempt.transaction }

/-- One pass of the loop of `execute_attempt`: its result, or the state it goes on
with. -/
def Attempt.pass (attempt : Attempt) : AtM (AtResult ⊕ Attempt) := do
  if attempt.transaction.done then pure (.inl attempt.transaction.response.result)
  else if (← Prog.send AtCall.overflowEpoch) ≠ attempt.overflowEpoch then pure (.inl .rxOverflow)
  else if (← Prog.send AtCall.transportLostEpoch) ≠ attempt.lostEpoch then
    pure (.inl .transportError)
  else if (← Prog.send AtCall.cancelEpoch) ≠ attempt.cancelEpoch then pure (.inl .canceled)
  else if attempt.deadlineUs - (← Prog.send AtCall.time) ≤ 0 then pure (.inl .timeout)
  else
    match ← Prog.send (AtCall.receiveRx true) with
    | none => pure (.inr attempt)
    | some (.data bytes) => do pure (.inr (← attempt.feed bytes))
    | some .transportLost => pure (.inl .transportError)
    | some .cancel => pure (.inl .canceled)

/-- Where the worker task is: at the top of its loop, in `process_idle_rx` before an
attempt, with another round after the retry delay or without, or in the loop of
`execute_attempt`. -/
inductive Worker where
  | idle (parser : Parser)
  | draining (request : Request) (number : UInt8) (again : Bool) (parser : Parser)
  | attempting (number : UInt8) (attempt : Attempt)
  deriving DecidableEq, Repr

def Request.attempts (request : Request) : UInt8 :=
  if request.maxAttempts = 0 then 1 else request.maxAttempts

/-- `execute_request` after an attempt: the caller gets the response, or another
attempt follows. -/
def concludeAttempt (request : Request) (number : UInt8) (response : Response) (parser : Parser)
    (result : AtResult) : AtM Worker := do
  let rested := if result = .ok then parser.setPromptEnabled false else .init
  if result = .ok ∨ ¬ shouldRetry result request.retryPolicy ∨ number = request.attempts then
    Prog.send (AtCall.complete { response with result := result })
    pure (.idle rested)
  else pure (.draining request (number + 1) (decide (0 < request.retryDelayMs)) .init)

def startAttempt (request : Request) (number : UInt8) (parser : Parser) : AtM Worker := do
  let response := { Response.reset with attempts := number }
  match ← beginAttempt request response parser with
  | .error result => concludeAttempt request number response parser result
  | .ok attempt => pure (.attempting number attempt)

/-- A chunk that no transaction waits for. -/
def feedIdle (parser : Parser) (bytes : List UInt8) : AtM Parser := do
  let after ← Parser.feed processToken bytes (parser, none)
  pure after.1

/-- One pass of the loop that the worker is in. -/
def Worker.pass : Worker → AtM Worker
  | .idle parser => do
      match ← Prog.send AtCall.receiveRequest with
      | some request => pure (.draining request 1 false parser)
      | none =>
          match ← Prog.send (AtCall.receiveRx true) with
          | none => pure (.idle parser)
          | some (.data bytes) =>
              if bytes.isEmpty then pure (.idle .init)
              else do pure (.idle (← feedIdle parser bytes))
          | some _ => pure (.idle .init)
  | .draining request number again parser => do
      match ← Prog.send (AtCall.receiveRx false) with
      | some (.data bytes) => do pure (.draining request number again (← feedIdle parser bytes))
      | some _ => pure (.draining request number again .init)
      | none =>
          if again then pure (.draining request number false parser)
          else startAttempt request number parser
  | .attempting number attempt => do
      match ← attempt.pass with
      | .inr attempt => pure (.attempting number attempt)
      | .inl result =>
          concludeAttempt attempt.transaction.request number attempt.transaction.response
            attempt.parser result

end SmsGateway.At
