import NodeManagement.ConsumerThread
import NodeManagement.NodeManagament
import NodeManagement.Library.Transition

/-!
The monitoring system: the registry with the threads of its nodes, `g_messageNodeQueue`, the
`handleSendData` thread, and the menu that starts and stops NodeManagament.  Handler calls are
atomic and packets arrive in any order.  An entry may be erased here before its thread has exited:
the join in `~NodeBase` is `Registry.joinBlocked`, for which the whole program waits.
-/

namespace NodeManagement

/-- A message with a ghost field, read by no code: the serial number of the node whose thread
pushed it. -/
structure PostedMessage where
  message : StrMessageState
  sender : Nat
deriving DecidableEq

def PostedMessage.initial : PostedMessage := ⟨.initial, 0⟩

structure Monitor where
  registry : Registry
  messageNodeQueue : ThreadSafeQueue PostedMessage
  running : Bool
  phase : ModulePhase
  nodeHandleThread : ConsumerThread PostedMessage
deriving DecidableEq

def Monitor.initial : Monitor where
  registry := .empty
  messageNodeQueue := .create
  running := false
  phase := .idle
  nodeHandleThread := .absent .initial

inductive MonitorEvent
  | nodeStep (index : Nat) (now : Bytes) (timedOut : Bool)
  | register (packet : RigisterPacket)
  | pong (packet : Packet)
  | waitAndPop
  | checkRunning
  | handleMessage
  | start
  | stop
  | proceed

namespace Monitor

def nodeStep (monitor : Monitor) (index : Nat) (now : Bytes) (timedOut : Bool) :
    Option Monitor :=
  match monitor.registry.vecNodeBase[index]? with
  | none => none
  | some node =>
      (node.threadStep monitor.registry.nodeID now timedOut).map fun (after, pushed) =>
        { monitor with
          registry := { monitor.registry with
            vecNodeBase := monitor.registry.vecNodeBase.set index after }
          messageNodeQueue :=
            match pushed with
            | some message =>
                monitor.messageNodeQueue.push ⟨message, node.serial⟩ true
            | none => monitor.messageNodeQueue }

/-- The part of the next statement of `NodeManagament::start` or `stop` that this system
sees; the other queue and the other thread belong to the receiving side. -/
def proceed (monitor : Monitor) : Option Monitor :=
  match monitor.phase with
  | .idle => none
  | .startSecondQueue =>
      some { monitor with
        messageNodeQueue := monitor.messageNodeQueue.start
        phase := monitor.phase.next }
  | .spawnSecond =>
      some { monitor with
        nodeHandleThread := .spawn .initial
        phase := monitor.phase.next }
  | .stopSecondQueue =>
      some { monitor with
        messageNodeQueue := monitor.messageNodeQueue.stop
        phase := monitor.phase.next }
  | .joinSecond =>
      if monitor.nodeHandleThread.live then none
      else some { monitor with phase := monitor.phase.next }
  | _ => some { monitor with phase := monitor.phase.next }

def step (monitor : Monitor) : MonitorEvent → Option Monitor
  | .nodeStep index now timedOut => monitor.nodeStep index now timedOut
  | .register packet =>
      some { monitor with registry := monitor.registry.checkRegisterMessage packet }
  | .pong packet =>
      if monitor.registry.pongBlocked packet then none
      else some { monitor with registry := monitor.registry.checkPongMessage packet }
  | .waitAndPop =>
      (monitor.nodeHandleThread.pop monitor.messageNodeQueue).map fun (thread, rest) =>
        { monitor with nodeHandleThread := thread, messageNodeQueue := rest }
  | .checkRunning =>
      (monitor.nodeHandleThread.check monitor.running).map fun thread =>
        { monitor with nodeHandleThread := thread }
  | .handleMessage =>
      if monitor.nodeHandleThread.pc = .working then
        let posted := monitor.nodeHandleThread.item
        some { monitor with
          registry := (monitor.registry.handleMessage posted.message).1
          nodeHandleThread := monitor.nodeHandleThread.finish posted }
      else none
  | .start =>
      if monitor.phase = .idle then
        if !monitor.running then
          some { monitor with running := true, phase := .startFirstQueue }
        else some monitor
      else none
  | .stop =>
      if monitor.phase = .idle then
        if monitor.running then
          some { monitor with running := false, phase := .stopFirstQueue }
        else some monitor
      else none
  | .proceed => monitor.proceed

def pending (monitor : Monitor) : List PostedMessage :=
  monitor.nodeHandleThread.held ++ monitor.messageNodeQueue.queue

def ReachableBy (allowed : Monitor → MonitorEvent → Prop) (monitor : Monitor) : Prop :=
  Transition.Reaches step allowed initial monitor

def Reachable (monitor : Monitor) : Prop := ReachableBy Transition.anyStep monitor

end Monitor

end NodeManagement
