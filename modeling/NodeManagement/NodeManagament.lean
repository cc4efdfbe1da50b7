import NodeManagement.NodeThread
import NodeManagement.Packet
import NodeManagement.Library.KeyedList

/-!
The message handlers of `NodeManagament.cpp`.  Each is one function on the vector of nodes;
packets it pushes to `g_sendIOQueue` are returned in the order of the pushes.
-/

namespace NodeManagement

open KeyedList

/-- `m_vecNodeBase`, and as a ghost how many node objects have been made. -/
structure Registry where
  vecNodeBase : List NodeBase
  made : Nat
deriving DecidableEq

/-- The static counter `NodeBase::m_nodeID`. -/
def Registry.nodeID (registry : Registry) : Int := int32 registry.made

def Registry.empty : Registry := ⟨[], 0⟩

namespace Registry

/-- The common body of the three cases of `pushNodeToVector`: `createID`, the constructor,
`setClientInfor`, `push_back` and `start`. -/
def addNode (registry : Registry) (type : TypeNode) (clientAddr : SockaddrIn) : Registry where
  vecNodeBase := registry.vecNodeBase ++
    [((NodeBase.create type (registry.made + 1)).setClientInfor clientAddr).start]
  made := registry.made + 1

def pushNodeToVector (registry : Registry) (packet : RigisterPacket) : Registry :=
  match packet.typeNode with
  | .dataPlane => registry.addNode .dataPlane packet.clientAddr
  | .controlPlane => registry.addNode .controlPlane packet.clientAddr
  | .oam => registry.addNode .oam packet.clientAddr
  | _ => registry

def checkPongMessage (registry : Registry) (packet : Packet) : Registry :=
  if !registry.vecNodeBase.isEmpty then
    { registry with
      vecNodeBase := updateFirst NodeBase.getPortInfo packet.clientAddr.sinPort
        (fun node => node.setPongState true) registry.vecNodeBase }
  else registry

def checkRegisterMessage (registry : Registry) (packet : RigisterPacket) : Registry :=
  if !registry.vecNodeBase.isEmpty then
    if !hasKey NodeBase.getPortInfo packet.clientAddr.sinPort registry.vecNodeBase then
      registry.pushNodeToVector packet
    else registry
  else registry.pushNodeToVector packet

/-- `setPongState` waits for the mutex of the node it found; the node's own thread may hold it. -/
def pongBlocked (registry : Registry) (packet : Packet) : Bool :=
  match toMap NodeBase.getPortInfo registry.vecNodeBase packet.clientAddr.sinPort with
  | some node => node.ownsMutex
  | none => false

end Registry

def checkPingMessage (message : StrMessageState) : PingPacket :=
  { PingPacket.create with
    typeMessage := .ping
    mes := message.message
    payloadLengh := pingPlayloadLength
    clientAddr := message.clientAddr }

def notifyPacketTo (message : StrMessageState) (receiver : NodeBase) : NotifyPacket :=
  { NotifyPacket.create with
    clientAddr := receiver.getClientInfor
    typeMessage := .notify
    mes := message.message
    payloadLengh := notifyPlayloadLength
    typeNode := message.typeNode
    stateNodeNotify := message.state
    portNodeNotify := message.clientAddr.sinPort }

def Registry.checkNotifyMessage (registry : Registry) (message : StrMessageState) :
    Registry × List NotifyPacket :=
  if message.state = .timeout then
    (registry, registry.vecNodeBase.map (notifyPacketTo message))
  else if message.state = .dead then
    ({ registry with
        vecNodeBase := eraseFirst NodeBase.getPortInfo message.clientAddr.sinPort
          registry.vecNodeBase }, [])
  else (registry, [])

def Registry.handleMessage (registry : Registry) (message : StrMessageState) :
    Registry × List PacketObject :=
  if message.messageType = 0 then (registry, [.ping (checkPingMessage message)])
  else if message.messageType = 1 then
    let (after, packets) := registry.checkNotifyMessage message
    (after, packets.map .notify)
  else (registry, [])

/-- The erasure of an entry destroys its node, and `~NodeBase` joins the thread of the node. -/
def Registry.joinBlocked (registry : Registry) (message : StrMessageState) : Bool :=
  message.isDead &&
    match toMap NodeBase.getPortInfo registry.vecNodeBase message.clientAddr.sinPort with
    | some node => node.threadLive
    | none => false

def TypeNode.isMonitored : TypeNode → Bool
  | .dataPlane | .controlPlane | .oam => true
  | _ => false

def RigisterPacket.newNode (packet : RigisterPacket) (serial : Nat) : NodeBase :=
  ((NodeBase.create packet.typeNode serial).setClientInfor packet.clientAddr).start

namespace RigisterPacket

@[simp] theorem newNode_getPortInfo (packet : RigisterPacket) (serial : Nat) :
    (packet.newNode serial).getPortInfo = packet.clientAddr.sinPort := rfl

@[simp] theorem newNode_clientAddr (packet : RigisterPacket) (serial : Nat) :
    (packet.newNode serial).clientAddr = packet.clientAddr := rfl

@[simp] theorem newNode_serial (packet : RigisterPacket) (serial : Nat) :
    (packet.newNode serial).serial = serial := rfl

@[simp] theorem newNode_type (packet : RigisterPacket) (serial : Nat) :
    (packet.newNode serial).type = packet.typeNode := rfl

theorem newNode_coherent (packet : RigisterPacket) (serial : Nat) :
    (packet.newNode serial).Coherent := by
  simp [newNode, NodeBase.Coherent, NodeBase.create, NodeBase.setClientInfor, NodeBase.start]

theorem newNode_pushedDead (packet : RigisterPacket) (serial : Nat) :
    (packet.newNode serial).pushedDead = false := by
  simp [newNode, NodeBase.pushedDead, NodeBase.create, NodeBase.setClientInfor, NodeBase.start]

end RigisterPacket

namespace Registry

theorem pushNodeToVector_eq (registry : Registry) (packet : RigisterPacket) :
    registry.pushNodeToVector packet =
      if packet.typeNode.isMonitored then
        { vecNodeBase := registry.vecNodeBase ++ [packet.newNode (registry.made + 1)]
          made := registry.made + 1 }
      else registry := by
  unfold pushNodeToVector RigisterPacket.newNode
  cases type : packet.typeNode <;> rfl

theorem checkRegisterMessage_eq (registry : Registry) (packet : RigisterPacket) :
    registry.checkRegisterMessage packet =
      if packet.typeNode.isMonitored &&
          !hasKey NodeBase.getPortInfo packet.clientAddr.sinPort registry.vecNodeBase then
        { vecNodeBase := registry.vecNodeBase ++ [packet.newNode (registry.made + 1)]
          made := registry.made + 1 }
      else registry := by
  unfold checkRegisterMessage
  rw [pushNodeToVector_eq]
  cases contents : registry.vecNodeBase with
  | nil => simp [hasKey]
  | cons first rest =>
      cases packet.typeNode.isMonitored <;>
        cases hasKey NodeBase.getPortInfo packet.clientAddr.sinPort (first :: rest) <;> simp

theorem checkPongMessage_eq (registry : Registry) (packet : Packet) :
    registry.checkPongMessage packet =
      { registry with
        vecNodeBase := updateFirst NodeBase.getPortInfo packet.clientAddr.sinPort
          (fun node => node.setPongState true) registry.vecNodeBase } := by
  unfold checkPongMessage
  cases contents : registry.vecNodeBase with
  | nil =>
      cases registry
      simp_all [updateFirst]
  | cons first rest => simp

theorem handleMessage_registry (registry : Registry) (message : StrMessageState) :
    (registry.handleMessage message).1 =
      if message.isDead then
        { registry with
          vecNodeBase := eraseFirst NodeBase.getPortInfo message.clientAddr.sinPort
            registry.vecNodeBase }
      else registry := by
  unfold handleMessage checkNotifyMessage StrMessageState.isDead
  by_cases ping : message.messageType = 0#8
  · simp [ping]
  · by_cases notify : message.messageType = 1#8
    · cases state : message.state <;> simp [notify]
    · simp [ping, notify]

end Registry

end NodeManagement
