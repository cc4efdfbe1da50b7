import NodeManagement.Consumer
import NodeManagement.Decoding
import NodeManagement.Monitor

/-!
The whole program: the monitoring system, the receiving side of NodeManagament, the IOHandler
with its two threads, the UDP receiver, and the menu, which calls one `start` or `stop` at a
time.  Packets live on the heap under an identity, and a pointer is all that the queues hold.
-/

namespace NodeManagement

/-- What the UDP receiver pushes, with a ghost field, read by no code: its place in the order of
reception. -/
structure Reception where
  dataUDP : DataReceivedUDP
  serial : Nat
deriving DecidableEq

def Reception.initial : Reception := ⟨.create, 0⟩

/-- A packet made by `pushMessageReceived`, `checkPingMessage` or `checkNotifyMessage`.  The
ghost field `origin` is the reception it was decoded from. -/
structure HeapPacket where
  identity : Nat
  object : PacketObject
  origin : Option Nat
deriving DecidableEq

/-- A `Packet*`; `initial` points to the `new Packet()` of a consumer thread. -/
inductive PacketPointer
  | null
  | initial
  | heap (packet : HeapPacket)
deriving DecidableEq

namespace PacketPointer

def pointee : PacketPointer → Option PacketObject
  | null => none
  | initial => some (.packet .create)
  | heap packet => some packet.object

def owned : PacketPointer → List HeapPacket
  | heap packet => [packet]
  | _ => []

end PacketPointer

/-- The packet that `pushMessageReceived` makes of a buffer; other types are ignored. -/
def decodeReceived (dataPDU : DataReceivedUDP) : Option PacketObject := do
  match ← checkMessageType dataPDU.buffer with
  | .register =>
      let packet ← RigisterPacket.create.decode dataPDU.buffer
      return .rigister { packet with clientAddr := dataPDU.clientAddr }
  | .pong =>
      let packet ← PongPacket.create.decode dataPDU.buffer
      return .pong { packet with clientAddr := dataPDU.clientAddr }
  | _ => none

/-- The dispatch of `handleReceivedData`.  It has no result where the `static_cast` names a
class that the object does not have. -/
def Monitor.handlePacket (monitor : Monitor) (object : PacketObject) : Option Monitor :=
  if object.base.typeMessage = .pong then monitor.step (.pong object.base)
  else if object.base.typeMessage = .register then
    match object with
    | .rigister packet => monitor.step (.register packet)
    | _ => none
  else some monitor

def PacketObject.isHandled (object : PacketObject) : Bool :=
  object.base.typeMessage == .pong || object.base.typeMessage == .register

/-- The dispatch of `handleTxThread`: the datagrams it hands to `sendDataUDP`, whose result it
ignores. -/
def PacketObject.transmit (object : PacketObject) : Option (List (SockaddrIn × Bytes)) :=
  if object.base.typeMessage = .ping then
    match object with
    | .ping value => value.encode.map fun stBuffer => [(value.clientAddr, stBuffer)]
    | _ => none
  else if object.base.typeMessage = .notify then
    match object with
    | .notify value => value.encode.map fun stBuffer => [(value.clientAddr, stBuffer)]
    | _ => none
  else some []

/-- `outbox` holds the packets that the running call of `checkPingMessage` or
`checkNotifyMessage` has still to make and push.  `reception`, `handled` and `deleted` are
ghost logs, `nextIdentity` counts the packets made. -/
structure System where
  monitor : Monitor
  outbox : List PacketObject
  receivedIOQueue : Consumer PacketPointer
  ioRunning : Bool
  ioPhase : ModulePhase
  udpRunning : Bool
  bufferUDPRecv : Consumer Reception
  sendIOQueue : Consumer PacketPointer
  nextIdentity : Nat
  reception : List Reception
  handled : List HeapPacket
  deleted : List HeapPacket
  sent : List (SockaddrIn × Bytes)
deriving DecidableEq

def System.initial : System where
  monitor := .initial
  outbox := []
  receivedIOQueue := .create .null
  ioRunning := false
  ioPhase := .idle
  udpRunning := false
  bufferUDPRecv := .create .initial
  sendIOQueue := .create .null
  nextIdentity := 0
  reception := []
  handled := []
  deleted := []
  sent := []

/-- `NodeManagament` starts and stops `g_receivedIOQueue` first, and `m_IOHandleThread` is the
first of its threads. -/
def receivedRole : Role := ⟨.first, .first, .first⟩

/-- `IOHandler::start` starts `g_bufferUDPRecv` second, `stop` stops it first, and `m_RxThread`
is the first of its threads. -/
def bufferRole : Role := ⟨.second, .first, .first⟩

/-- `IOHandler::start` starts `g_sendIOQueue` first, `stop` stops it second, and `m_TxThread` is
the second of its threads. -/
def sendRole : Role := ⟨.first, .second, .second⟩

inductive SystemEvent
  | nodeStep (index : Nat) (now : Bytes) (timedOut : Bool)
  | popMessage
  | checkMessage
  | handleMessage
  | pushPacket
  | popReceived
  | checkReceived
  | handleReceived
  | receive (result : Recvfrom)
  | popBuffer
  | checkBuffer
  | pushMessageReceived
  | popSend
  | checkSend
  | transmit
  | sendtoFails
  | startNodeManagament
  | stopNodeManagament
  | proceedNodeManagament
  | startIOHandler
  | startReceiver
  | stopIOHandler
  | proceedIOHandler

namespace System

def monitorStep (system : System) (event : MonitorEvent) : Option System :=
  (system.monitor.step event).map fun monitor => { system with monitor := monitor }

/-- One iteration of the loops that make and push packets: `new`, the setters and `push`. -/
def pushPacket (system : System) : Option System :=
  match system.outbox with
  | [] => none
  | object :: rest =>
      some { system with
        outbox := rest
        nextIdentity := system.nextIdentity + 1
        sendIOQueue := system.sendIOQueue.push (.heap ⟨system.nextIdentity, object, none⟩) }

/-- The test of `m_running` in a thread that pops packets; a thread that leaves its loop
deletes the packet it holds. -/
def checkPointer (consumer : Consumer PacketPointer) (running : Bool) :
    Option (Consumer PacketPointer × List HeapPacket) :=
  (consumer.check running).map fun after =>
    if running then (after, [])
    else ({ after with thread := { after.thread with item := .null } }, after.thread.item.owned)

def handleReceived (system : System) : Option System :=
  if system.receivedIOQueue.thread.pc = .working then
    let pointer := system.receivedIOQueue.thread.item
    match pointer.pointee with
    | none => some { system with receivedIOQueue := system.receivedIOQueue.finish pointer }
    | some object =>
        (system.monitor.handlePacket object).map fun monitor =>
          { system with
            monitor := monitor
            receivedIOQueue := system.receivedIOQueue.finish .null
            handled := if object.isHandled then system.handled ++ pointer.owned
              else system.handled
            deleted := system.deleted ++ pointer.owned }
  else none

def pushMessageReceived (system : System) : Option System :=
  if system.bufferUDPRecv.thread.pc = .working then
    let dataPDU := system.bufferUDPRecv.thread.item
    let finished := { system with bufferUDPRecv := system.bufferUDPRecv.finish dataPDU }
    match decodeReceived dataPDU.dataUDP with
    | none => some finished
    | some object =>
        some { finished with
          nextIdentity := system.nextIdentity + 1
          receivedIOQueue := system.receivedIOQueue.push
            (.heap ⟨system.nextIdentity, object, some dataPDU.serial⟩) }
  else none

def transmit (system : System) : Option System :=
  if system.sendIOQueue.thread.pc = .working then
    let pointer := system.sendIOQueue.thread.item
    match pointer.pointee with
    | none => some { system with sendIOQueue := system.sendIOQueue.finish pointer }
    | some object =>
        object.transmit.map fun datagrams =>
          { system with
            sendIOQueue := system.sendIOQueue.finish .null
            deleted := system.deleted ++ pointer.owned
            sent := system.sent ++ datagrams }
  else none

/-- The same when `sendto` fails: `handleTxThread` drops the result of `sendDataUDP` and deletes
the packet all the same. -/
def sendtoFails (system : System) : Option System :=
  match system.sendIOQueue.thread.item.pointee with
  | none => none
  | some _ => system.transmit.map fun after => { after with sent := system.sent }

/-- The next statement of `IOHandler::start` or `stop`; the receiver is started before the
first queue. -/
def proceedIOHandler (system : System) : Option System :=
  if system.ioPhase = .idle || (system.ioPhase = .startFirstQueue && !system.udpRunning) then none
  else
    (system.bufferUDPRecv.proceed bufferRole system.ioPhase .initial).bind fun bufferUDPRecv =>
      (system.sendIOQueue.proceed sendRole system.ioPhase .initial).map fun sendIOQueue =>
        { system with
          bufferUDPRecv := bufferUDPRecv
          sendIOQueue := sendIOQueue
          ioPhase := system.ioPhase.next }

def step (system : System) : SystemEvent → Option System
  | .nodeStep index now timedOut => system.monitorStep (.nodeStep index now timedOut)
  | .popMessage => if system.outbox.isEmpty then system.monitorStep .waitAndPop else none
  | .checkMessage => system.monitorStep .checkRunning
  | .handleMessage =>
      if system.monitor.registry.joinBlocked system.monitor.nodeHandleThread.item.message then none
      else (system.monitorStep .handleMessage).map fun after =>
        { after with
          outbox := (system.monitor.registry.handleMessage
            system.monitor.nodeHandleThread.item.message).2 }
  | .pushPacket => system.pushPacket
  | .popReceived =>
      system.receivedIOQueue.pop.map fun received => { system with receivedIOQueue := received }
  | .checkReceived =>
      (checkPointer system.receivedIOQueue system.monitor.running).map fun (received, freed) =>
        { system with receivedIOQueue := received, deleted := system.deleted ++ freed }
  | .handleReceived => system.handleReceived
  | .receive result =>
      if system.udpRunning then
        match dataToPush result with
        | none => some system
        | some dataUDP =>
            let received := ⟨dataUDP, system.reception.length⟩
            some { system with
              reception := system.reception ++ [received]
              bufferUDPRecv := system.bufferUDPRecv.push received }
      else none
  | .popBuffer =>
      system.bufferUDPRecv.pop.map fun bufferUDPRecv =>
        { system with bufferUDPRecv := bufferUDPRecv }
  | .checkBuffer =>
      (system.bufferUDPRecv.check system.ioRunning).map fun bufferUDPRecv =>
        { system with bufferUDPRecv := bufferUDPRecv }
  | .pushMessageReceived => system.pushMessageReceived
  | .popSend => system.sendIOQueue.pop.map fun send => { system with sendIOQueue := send }
  | .checkSend =>
      (checkPointer system.sendIOQueue system.ioRunning).map fun (sendIOQueue, freed) =>
        { system with sendIOQueue := sendIOQueue, deleted := system.deleted ++ freed }
  | .transmit => system.transmit
  | .sendtoFails => system.sendtoFails
  | .startNodeManagament =>
      if system.ioPhase = .idle then system.monitorStep .start else none
  | .stopNodeManagament =>
      if system.ioPhase = .idle then system.monitorStep .stop else none
  | .proceedNodeManagament =>
      (system.receivedIOQueue.proceed receivedRole system.monitor.phase .initial).bind
        fun received =>
          (system.monitorStep .proceed).map fun after =>
            { after with receivedIOQueue := received }
  | .startIOHandler =>
      if system.monitor.phase = .idle && system.ioPhase = .idle then
        if !system.ioRunning then
          some { system with ioRunning := true, ioPhase := .startFirstQueue }
        else some system
      else none
  | .startReceiver =>
      if system.ioPhase = .startFirstQueue && !system.udpRunning then
        some { system with udpRunning := true }
      else none
  | .stopIOHandler =>
      if system.monitor.phase = .idle && system.ioPhase = .idle then
        if system.ioRunning then
          some { system with ioRunning := false, ioPhase := .stopFirstQueue }
        else some system
      else none
  | .proceedIOHandler => system.proceedIOHandler

def ReachableBy (allowed : System → SystemEvent → Prop) (system : System) : Prop :=
  Transition.Reaches step allowed initial system

def Reachable (system : System) : Prop := ReachableBy Transition.anyStep system

end System

def startNodeManagamentEvents : List SystemEvent :=
  .startNodeManagament :: List.replicate 4 .proceedNodeManagament

def startIOHandlerEvents : List SystemEvent :=
  .startIOHandler :: .startReceiver :: List.replicate 4 .proceedIOHandler

def registerDatagram : Recvfrom :=
  .received [0x00, 0x03, 0x01] ⟨0x0100007f, 0x204e⟩ (by decide)

def otherRegisterDatagram : Recvfrom :=
  .received [0x00, 0x03, 0x02] ⟨0x0100007f, 0x214e⟩ (by decide)

def clientPong : Recvfrom :=
  .received [0x02, 0x06, 0x50, 0x4f, 0x4e, 0x47] ⟨0x0100007f, 0x204e⟩ (by decide)

def receiveEvents : List SystemEvent :=
  [.receive registerDatagram, .popBuffer, .checkBuffer, .pushMessageReceived]

def takeInEvents (datagram : Recvfrom) : List SystemEvent :=
  [.receive datagram, .popBuffer, .checkBuffer, .pushMessageReceived, .popReceived,
    .checkReceived, .handleReceived]

end NodeManagement
