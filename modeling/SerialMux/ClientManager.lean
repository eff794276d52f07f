import SerialMux.BasePicard
import SerialMux.Client
import SerialMux.Library.Machine

/-!
# The client manager and its threads

The command thread runs `commandLoop`, the Picard thread `frameComplete` and
`commandComplete`, and the I/O thread the handlers of the clients.  `Mux` holds
the fields they share and the place at which each thread stands; a step is one
statement, or some statements as a whole where no statement of another thread
comes between.  `Process` takes the statements of these blocks one by one: the
command thread writes fields that they read and takes no lock for it.  What two
threads do to one field inside a single statement is not modelled.
-/

namespace SerialMux

/-- A client pointer. -/
abbrev ClientId := Nat

/-- The enumeration `EClientResult`. -/
inductive ClientResult
  | ok
  | timeout
  | disconnect
  deriving DecidableEq, Repr

/-- The structure `SClientCommand`.  A re-SUBSCRIBE has no client. -/
structure ClientCommand where
  client : Option ClientId := none
  command : MuxMessage := {}
  seq : Byte := 0
  result : ClientResult := .timeout
  deriving DecidableEq, Repr

/-- The function that names itself in a call of `sendResponse`. -/
inductive Sender
  | muxInfo
  | commandError
  | commandTimeout
  | commandComplete
  deriving DecidableEq, Repr

/-- The function that calls `resetConnection`. -/
inductive ResetCaller
  | commandTimeout
  | frameComplete
  deriving DecidableEq, Repr

/-- What the threads let an observer see: messages to the clients and to Picard,
resets, the commands that `commandLoop` goes on with, and the result with which
it leaves its transmissions. -/
inductive Output
  | accepted (cmd : ClientCommand)
  | concluded (result : ClientResult)
  | response (client : ClientId) (sender : Sender) (resp : MuxOutput)
  | notified (client : ClientId) (notif : MuxOutput)
  | sent (frame : ByteVector)
  | acked (frame : ByteVector)
  | reset (caller : ResetCaller)
  deriving DecidableEq, Repr

/-- The next statement of the command thread, with its local variables. -/
inductive LoopPhase
  | starting
  | checking
  | popping
  | finding (cmd : ClientCommand)
  | replying (cmd : ClientCommand) (sender : Sender) (resp : MuxOutput)
  | subscribing (cmd : ClientCommand)
  | recomputing (cmd : ClientCommand)
  | rewriting (cmd : ClientCommand)
  | installing (cmd : ClientCommand)
  | sending (cmd : ClientCommand) (i : Nat)
  | recording (cmd : ClientCommand) (i : Nat) (frame : ByteVector)
  | waiting (cmd : ClientCommand) (i : Nat)
  | concluding (cmd : ClientCommand) (result : ClientResult)
  | restoring (cmd : ClientCommand)
  | resetting (cmd : ClientCommand)
  | timingOut (cmd : ClientCommand)
  | disconnecting (cmd : ClientCommand)
  | clearing (cmd : ClientCommand)
  | finished
  | crashed
  deriving DecidableEq, Repr

/-- The command thread waits for an answer, and reads the result next. -/
def LoopPhase.isWaiting : LoopPhase → Bool
  | .waiting _ _ => true
  | _ => false

/-- The command thread transmits a command and has not read a final result. -/
def LoopPhase.transmitting : LoopPhase → Bool
  | .sending _ _ | .recording _ _ _ | .waiting _ _ => true
  | _ => false

/-- The next statement of the Picard thread. -/
inductive PicardPhase
  | reading
  | validating (response : Response)
  | rejecting (response : Response)
  | delivering (response : Response)
  | stopped
  | crashed
  deriving DecidableEq, Repr

/-- The Picard thread is about to enter the locked block of `commandComplete`. -/
def PicardPhase.isDelivering : PicardPhase → Bool
  | .delivering _ => true
  | _ => false

/-- The process: the clients, the fields of `CBoostClientManager` and of
`CBasePicardIO`, the listener and the I/O service, and the place of each thread.
`removing` is the client whose `removeClient` has not returned. -/
structure Mux where
  objects : ClientId → Client
  isRunning : Bool := false
  clients : List ClientId := []
  commands : List ClientCommand := []
  filterUnion : SubscriptionParams := {}
  prevfilter : SubscriptionParams := {}
  currentCommand : ClientCommand := {}
  io : BasePicard := {}
  listening : Bool := true
  serving : Bool := true
  stopping : Bool := false
  loop : LoopPhase := .starting
  picard : PicardPhase := .reading
  removing : Option ClientId := none

/-- What can happen next: an event of the I/O thread or of a peer, the next
statement of a thread, or a statement of the shutdown, which follows the end of
the I/O service. -/
inductive Action
  | addClient (client : ClientId)
  | addCommand (client : ClientId) (command : MuxMessage)
  | removeClient (client : ClientId)
  | eraseClient
  | hangUp (client : ClientId)
  | loop
  | receive (frame : ByteVector)
  | complete
  | unregisterCallback
  | stop
  | clearCommands
  deriving DecidableEq, Repr

/-- Largest payload of a forwarded command. -/
def maxSerialApiCmdLen : BitVec 16 := 128

namespace Mux

/-! ## Client manager functions -/

/-- Change the client behind a pointer. -/
def updateClient (m : Mux) (client : ClientId) (change : Client → Client) : Mux :=
  { m with objects := Function.update m.objects client (change (m.objects client)) }

/-- Change the subscriber behind a pointer that may be null. -/
def updateSubscriber (m : Mux) (client : Option ClientId)
    (change : Subscriber → Subscriber) : Mux :=
  match client with
  | none => m
  | some client =>
      m.updateClient client fun object =>
        { object with subscriber := change object.subscriber }

/-- Bitwise union of the newest filters of some clients. -/
def newParamsUnion (objects : ClientId → Client) (clients : List ClientId) :
    SubscriptionParams :=
  clients.foldl
    (fun params client =>
      { filter := params.filter ||| (objects client).subscriber.getSubscription
        unreliable :=
          params.unreliable ||| (objects client).subscriber.getUnreliable })
    {}

/-- Recompute the filter union and keep the previous one. -/
def recomputeSubscribeFilter (m : Mux) : Mux × Bool :=
  ({ m with
      prevfilter := m.filterUnion
      filterUnion := newParamsUnion m.objects m.clients },
    newParamsUnion m.objects m.clients != m.filterUnion)

/-- Write a response unless the client pointer is null. -/
def sendResponse (client : Option ClientId) (sender : Sender) (resp : MuxOutput) :
    List Output :=
  match client with
  | none => []
  | some client => [.response client sender resp]

/-- Close clients until one throws; whether all could be closed. -/
def closeEach (objects : ClientId → Client) : List ClientId → (ClientId → Client) × Bool
  | [] => (objects, true)
  | client :: rest =>
      match (objects client).close with
      | some closed => closeEach (Function.update objects client closed) rest
      | none => (objects, false)

/-- Close all clients; whether it returns rather than throws. -/
def closeClients (m : Mux) : Mux × Bool :=
  match closeEach m.objects m.clients with
  | (objects, true) => ({ m with objects := objects, clients := [] }, true)
  | (objects, false) => ({ m with objects := objects }, false)

/-- Tear the connection down; whether it returns rather than throws. -/
def resetConnection (m : Mux) : Mux × Bool :=
  match closeClients { m with io := { m.io with isRunning := false } } with
  | (closed, true) => ({ closed with listening := false, serving := false }, true)
  | (closed, false) => (closed, false)

/-- The messages to the clients whose filter lets a notification through. -/
def notifyEach (objects : ClientId → Client) (notifType : Byte) (payload : ByteVector) :
    List ClientId → Option (List Output)
  | [] => some []
  | client :: rest => do
      let subscribed ← (objects client).subscriber.isSubscribed notifType.toNat
      let others ← notifyEach objects notifType payload rest
      if subscribed then
        some (.notified client
          (MuxOutput.make Command.notification 0 notifType payload) :: others)
      else some others

/-- Pass a notification on. -/
def handleNotif (m : Mux) (notifType : Byte) (payload : ByteVector) :
    Mux × List Output :=
  match notifyEach m.objects notifType payload m.clients with
  | some outputs => (m, outputs)
  | none => ({ m with picard := .crashed }, [])

/-! ## The I/O thread -/

/-- Whether a handler of the client may run: the I/O thread is free, and a read
of the client is outstanding. -/
def handles (m : Mux) (client : ClientId) (state : InitState) : Bool :=
  m.serving && m.removing.isNone && (m.objects client).reading &&
    (m.objects client).initState == state

/-- Register a client that has sent its hello. -/
def addClient (m : Mux) (client : ClientId) : Mux :=
  if m.handles client .waiting then
    let added := m.updateClient client fun object =>
      { object with initState := .authenticated }
    { added with clients := added.clients ++ [client] }
  else m

/-- Queue a command read from a client.  The length field of a mux message
leaves room for 65532 payload bytes. -/
def addCommand (m : Mux) (client : ClientId) (command : MuxMessage) : Mux :=
  if m.handles client .authenticated ∧ command.data.length ≤ 65532 then
    { m with commands := m.commands ++ [{ client := some client, command := command }] }
  else m

/-- A read error: `removeClient` up to its lock. -/
def removeClient (m : Mux) (client : ClientId) : Mux :=
  if m.handles client .authenticated then
    let failed := m.updateClient client fun object => { object with reading := false }
    let marked :=
      if failed.currentCommand.client.isSome then
        { failed with currentCommand.result := .disconnect }
      else failed
    { marked with removing := some client }
  else m

/-- The re-SUBSCRIBE of the current filter union. -/
def resubscribe (m : Mux) : List ClientCommand :=
  match filterToVector m.filterUnion (List.replicate subscribeParamsLength 0) with
  | some payload => [{ command := MuxMessage.ofPayload Command.subscribe payload }]
  | none => []

/-- The block of `removeClient` under the lock. -/
def eraseClient (m : Mux) : Mux :=
  match m.removing with
  | none => m
  | some client =>
      let returned := { m with removing := none }
      if client ∈ m.clients then
        let (recomputed, changed) :=
          recomputeSubscribeFilter { returned with clients := m.clients.erase client }
        if changed then
          { recomputed with commands := recomputed.commands ++ recomputed.resubscribe }
        else recomputed
      else returned

/-! ## The command thread -/

/-- Where `commandLoop` goes on with a command. -/
def dispatch (m : Mux) (cmd : ClientCommand) : LoopPhase :=
  if cmd.command.type = MuxCommand.muxInfo then
    match cmd.client with
    | some client =>
        .replying cmd .muxInfo
          (MuxOutput.make MuxCommand.muxInfo 0 ErrorCode.ok
            (muxInfoPayload (m.objects client).protocolVersion))
    | none => .crashed
  else if ¬isPicardApiCommand cmd.command.type ∨
      maxSerialApiCmdLen < cmd.command.size then
    .replying cmd .commandError
      (MuxOutput.make cmd.command.type 0 ErrorCode.invalidCmd [])
  else if cmd.command.type = Command.subscribe ∧ cmd.client.isSome then .subscribing cmd
  else .installing cmd

/-- Whether `commandLoop` goes on with a command: its client is registered, or
it has none. -/
def isExpected (m : Mux) (cmd : ClientCommand) : Bool :=
  match cmd.client with
  | some client => client ∈ m.clients
  | none => true

/-- The head of the loop over the transmissions: the result if it is left. -/
def attempt (retries : Int) (cmd : ClientCommand) (i : Nat) (result : ClientResult) :
    LoopPhase × List Output :=
  if result = .timeout ∧ (i : Int) < retries then (.sending cmd i, [])
  else (.concluding cmd result, [.concluded result])

/-- The next statement of `commandLoop`. -/
def loopStep (retries : Int) (m : Mux) : Mux × List Output :=
  match m.loop with
  | .starting => ({ m with isRunning := true, loop := .checking }, [])
  | .checking => ({ m with loop := if m.isRunning then .popping else .finished }, [])
  | .popping =>
      match m.commands with
      | [] => ({ m with loop := .checking }, [])
      | cmd :: rest => ({ m with commands := rest, loop := .finding cmd }, [])
  | .finding cmd =>
      if m.isExpected cmd then ({ m with loop := m.dispatch cmd }, [.accepted cmd])
      else ({ m with loop := .checking }, [])
  | .replying cmd sender resp =>
      ({ m with loop := .checking }, sendResponse cmd.client sender resp)
  | .subscribing cmd =>
      match vectorToFilter cmd.command.data with
      | some params =>
          ({ m.updateSubscriber cmd.client (Subscriber.setSubscription params) with
              loop := .recomputing cmd }, [])
      | none => ({ m with loop := .crashed }, [])
  | .recomputing cmd => ({ m.recomputeSubscribeFilter.1 with loop := .rewriting cmd }, [])
  | .rewriting cmd =>
      match filterToVector m.filterUnion cmd.command.data with
      | some data => ({ m with loop := .installing { cmd with command.data := data } }, [])
      | none => ({ m with loop := .crashed }, [])
  | .installing cmd =>
      let (next, outputs) := attempt retries cmd 0 .timeout
      ({ m with currentCommand := cmd, loop := next }, outputs)
  | .sending cmd i =>
      ({ m with loop := .recording cmd i (BasePicard.commandFrame cmd.command m.io.seqNo) }, [])
  | .recording cmd i frame =>
      ({ m with currentCommand.seq := m.io.seqNo, loop := .waiting cmd i },
        [.sent frame])
  | .waiting cmd i =>
      let (next, outputs) := attempt retries cmd (i + 1) m.currentCommand.result
      ({ m with loop := next }, outputs)
  | .concluding cmd result =>
      if result ≠ .ok ∧ cmd.client.isSome then
        if cmd.command.type = Command.subscribe then ({ m with loop := .restoring cmd }, [])
        else ({ m with loop := .timingOut cmd }, [])
      else ({ m with loop := .clearing cmd }, [])
  | .restoring cmd =>
      ({ m with filterUnion := m.prevfilter, loop := .resetting cmd }, [])
  | .resetting cmd =>
      ({ m.updateSubscriber cmd.client Subscriber.resetFilter with
          loop := .timingOut cmd }, [])
  | .timingOut cmd =>
      ({ m with loop := .disconnecting cmd },
        sendResponse cmd.client .commandTimeout
          (MuxOutput.make cmd.command.type 0 ErrorCode.commandTimeout []))
  | .disconnecting cmd =>
      match m.resetConnection with
      | (closed, true) => ({ closed with loop := .clearing cmd }, [.reset .commandTimeout])
      | (closed, false) => ({ closed with loop := .crashed }, [.reset .commandTimeout])
  | .clearing _ => ({ m with currentCommand := {}, loop := .checking }, [])
  | .finished => (m, [])
  | .crashed => (m, [])

/-! ## The Picard thread -/

/-- Carry out what `frameComplete` does outside the connection's fields. -/
def handleEvent (m : Mux) : PicardEvent → Mux × List Output
  | .sendRaw data => (m, [.acked data])
  | .handleNotif notifType payload => m.handleNotif notifType payload
  | .commandComplete response => ({ m with picard := .validating response }, [])
  | .notifyConnect => (m, [])
  | .resetConnection =>
      match m.resetConnection with
      | (closed, true) => (closed, [.reset .frameComplete])
      | (closed, false) => ({ closed with picard := .stopped }, [.reset .frameComplete])

/-- Carry out several events. -/
def handleEvents (m : Mux) : List PicardEvent → Mux × List Output
  | [] => (m, [])
  | event :: rest =>
      let (next, outputs) := m.handleEvent event
      let (final, more) := next.handleEvents rest
      (final, outputs ++ more)

/-- Handle a frame up to the call of `commandComplete`. -/
def receive (m : Mux) (frame : ByteVector) : Mux × List Output :=
  if m.picard = .reading then
    let (io, events) := m.io.frameComplete frame
    { m with io := io }.handleEvents events
  else (m, [])

/-- The block of `commandComplete` under its lock. -/
def deliver (m : Mux) (response : Response) : Mux × List Output :=
  let answered := { m with currentCommand.result := .ok, picard := .reading }
  (if response.cmdType = Command.subscribe then
      answered.updateSubscriber m.currentCommand.client Subscriber.commitFilter
    else answered,
    sendResponse m.currentCommand.client .commandComplete
      (MuxOutput.make response.cmdType 0 response.respCode response.payload))

/-- The next statement of `commandComplete`. -/
def completeStep (m : Mux) : Mux × List Output :=
  match m.picard with
  | .validating response =>
      if response.cmdType ≠ m.currentCommand.command.type ∨
          response.seqNo ≠ m.currentCommand.seq then
        ({ m with picard := .reading }, [])
      else if response.cmdType = Command.subscribe ∧ response.respCode ≠ ErrorCode.ok then
        ({ m with picard := .rejecting response }, [])
      else ({ m with picard := .delivering response }, [])
  | .rejecting response =>
      ({ m with filterUnion := m.prevfilter, picard := .delivering response }, [])
  | .delivering response => m.deliver response
  | .reading | .stopped | .crashed => (m, [])

/-! ## Steps and runs -/

/-- An uncaught exception or undefined behaviour ends the process. -/
def hasCrashed (m : Mux) : Bool :=
  m.loop == .crashed || m.picard == .crashed

/-- What an action does in a running process. -/
def perform (retries : Int) (m : Mux) : Action → Mux × List Output
  | .addClient client => (m.addClient client, [])
  | .addCommand client command => (m.addCommand client command, [])
  | .removeClient client => (m.removeClient client, [])
  | .eraseClient => (m.eraseClient, [])
  | .hangUp client =>
      (m.updateClient client fun object => { object with peerGone := true }, [])
  | .loop => m.loopStep retries
  | .receive frame => m.receive frame
  | .complete => m.completeStep
  | .unregisterCallback =>
      if ¬m.serving ∧ m.removing.isNone then
        ({ m with io := { m.io with callback := false } }, [])
      else (m, [])
  | .stop =>
      if ¬m.io.callback then ({ m with isRunning := false, stopping := true }, [])
      else (m, [])
  | .clearCommands =>
      if m.stopping then ({ m with commands := [], stopping := false }, []) else (m, [])

/-- One step of the process. -/
def step (retries : Int) (m : Mux) (action : Action) : Mux × List Output :=
  if m.hasCrashed then (m, []) else m.perform retries action

/-- The process when its threads are started: no client has connected, and the
Picard connection has the client manager as its handler. -/
def start (io : BasePicard) (protocolVersion : Byte) : Mux where
  objects := fun _ => { protocolVersion := protocolVersion }
  io := { io with callback := true }

/-- The states that a run can reach. -/
def Reachable (retries : Int) (m : Mux) : Prop :=
  ∃ io protocolVersion actions,
    (Machine.run (step retries) (start io protocolVersion) actions).1 = m

end Mux

end SerialMux
