import NodeManagement.RegistryMap
import NodeManagement.Library.Transition

/-!
The two threads of NodeManagament on the one vector `m_vecNodeBase`, without the mutex they
never take: each loop iteration is a step, and an erase by one thread shifts the entries under
the position that the other thread holds.
-/

namespace NodeManagement

open KeyedList Transition

inductive ReceivedCall
  | register (packet : RigisterPacket)
  | pong (packet : Packet)

namespace ReceivedCall

def port : ReceivedCall → BitVec 16
  | register packet => packet.clientAddr.sinPort
  | pong packet => packet.clientAddr.sinPort

def run (call : ReceivedCall) (registry : Registry) : Registry :=
  match call with
  | register packet => registry.checkRegisterMessage packet
  | pong packet => registry.checkPongMessage packet

def concerns (call : ReceivedCall) (node : NodeBase) : Bool :=
  match call with
  | register packet => packet.typeNode.isMonitored
  | pong _ => !node.pongState

end ReceivedCall

/-- Where a handler stands: its iterator as an index, `behind` after the loop of
`checkRegisterMessage`, `outOfRange` when it has dereferenced a position past the end. -/
inductive Cursor
  | start
  | loop (position : Nat)
  | behind (position : Nat)
  | pushing
  | returned
  | outOfRange
deriving DecidableEq

structure SharedVector where
  registry : Registry
  packets : List PacketObject
  received : Cursor
  send : Cursor
deriving DecidableEq

inductive Worker
  | received
  | send

namespace SharedVector

def called (registry : Registry) : SharedVector := ⟨registry, [], .start, .start⟩

def receivedStep (call : ReceivedCall) (state : SharedVector) : Option SharedVector :=
  let nodes := state.registry.vecNodeBase
  match state.received with
  | .start =>
      some { state with
        received :=
          if !nodes.isEmpty then .loop 0
          else match call with
            | .register _ => .pushing
            | .pong _ => .returned }
  | .loop position =>
      if position = nodes.length then
        some { state with
          received := match call with
            | .register _ => .behind position
            | .pong _ => .returned }
      else match nodes[position]? with
        | none => some { state with received := .outOfRange }
        | some node =>
            if node.getPortInfo = call.port then
              match call with
              | .register _ => some { state with received := .behind position }
              | .pong _ =>
                  some { state with
                    registry := { state.registry with
                      vecNodeBase := nodes.set position (node.setPongState true) }
                    received := .returned }
            else some { state with received := .loop (position + 1) }
  | .behind position =>
      some { state with received := if position = nodes.length then .pushing else .returned }
  | .pushing =>
      match call with
      | .register packet =>
          some { state with
            registry := state.registry.pushNodeToVector packet
            received := .returned }
      | .pong _ => none
  | .returned | .outOfRange => none

def sendStep (message : StrMessageState) (state : SharedVector) : Option SharedVector :=
  let nodes := state.registry.vecNodeBase
  match state.send with
  | .start =>
      if message.messageType = 0 then
        some { state with
          packets := state.packets ++ [.ping (checkPingMessage message)]
          send := .returned }
      else if message.messageType = 1 ∧ (message.state = .timeout ∨ message.state = .dead) then
        some { state with send := .loop 0 }
      else some { state with send := .returned }
  | .loop position =>
      if position = nodes.length then some { state with send := .returned }
      else match nodes[position]? with
        | none => some { state with send := .outOfRange }
        | some node =>
            if message.state = .timeout then
              some { state with
                packets := state.packets ++ [.notify (notifyPacketTo message node)]
                send := .loop (position + 1) }
            else if node.getPortInfo = message.clientAddr.sinPort then
              some { state with
                registry := { state.registry with vecNodeBase := nodes.eraseIdx position }
                send := .returned }
            else some { state with send := .loop (position + 1) }
  | _ => none

def step (call : ReceivedCall) (message : StrMessageState) (state : SharedVector) :
    Worker → Option SharedVector
  | .received => state.receivedStep call
  | .send => state.sendStep message

end SharedVector

def serialReceivedFirst (call : ReceivedCall) (message : StrMessageState) (registry : Registry) :
    Registry × List PacketObject :=
  (call.run registry).handleMessage message

def serialSendFirst (call : ReceivedCall) (message : StrMessageState) (registry : Registry) :
    Registry × List PacketObject :=
  (call.run (registry.handleMessage message).1, (registry.handleMessage message).2)

/-- Every interleaving stays in range and ends, after a bounded number of steps and without
getting stuck, as one of the serial orders; in particular a registration leaves the ports
distinct, and a PONG has set the flag of its port's entry. -/
structure Serialisable (call : ReceivedCall) (message : StrMessageState) (registry : Registry) :
    Prop where
  inRange : ∀ state, Reaches (SharedVector.step call message) anyStep (.called registry) state →
    state.received ≠ .outOfRange ∧ state.send ≠ .outOfRange
  moves : ∀ state, Reaches (SharedVector.step call message) anyStep (.called registry) state →
    (state.received ≠ .returned → (state.receivedStep call).isSome = true) ∧
      (state.send ≠ .returned → (state.sendStep message).isSome = true)
  ends : ∀ workers state,
    runFrom (SharedVector.step call message) (.called registry) workers = some state →
    workers.length ≤ 3 * (registry.vecNodeBase.length + 4)
  serial : ∀ state, Reaches (SharedVector.step call message) anyStep (.called registry) state →
    state.received = .returned → state.send = .returned →
    (state.registry, state.packets) = serialReceivedFirst call message registry ∨
      (state.registry, state.packets) = serialSendFirst call message registry
  ports : ∀ state, Reaches (SharedVector.step call message) anyStep (.called registry) state →
    state.received = .returned → state.send = .returned → state.registry.PortsDistinct
  flagged : ∀ state, Reaches (SharedVector.step call message) anyStep (.called registry) state →
    state.received = .returned → state.send = .returned → ∀ packet, call = .pong packet →
    ∀ node ∈ state.registry.vecNodeBase, node.getPortInfo = call.port → node.pongState = true

/-- A DEAD message erases a node of another port than the call's, while that port has no entry
or has one behind the erased node that the call is about to treat. -/
def Conflict (call : ReceivedCall) (message : StrMessageState) (registry : Registry) : Prop :=
  message.isDead = true ∧ message.clientAddr.sinPort ≠ call.port ∧
    ∃ (position : Nat) (dead : NodeBase), registry.vecNodeBase[position]? = some dead ∧
      dead.getPortInfo = message.clientAddr.sinPort ∧
      ((∀ node ∈ registry.vecNodeBase, node.getPortInfo ≠ call.port) ∨
        ∃ (later : Nat) (node : NodeBase), position < later ∧
          registry.vecNodeBase[later]? = some node ∧ node.getPortInfo = call.port ∧
          call.concerns node = true)

end NodeManagement
