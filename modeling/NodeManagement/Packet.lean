import NodeManagement.BitFields

/-!
The packet classes of `Packet.cpp`.  Setters are field updates; `encode` and `decode` are
translated statement by statement over the bit fields.
-/

namespace NodeManagement

structure Packet where
  typeMessage : TypeMessage
  payloadLengh : BitVec 8
  mes : Bytes
  clientAddr : SockaddrIn
deriving DecidableEq

/-- `new Packet()`: the class has no constructor of its own, so its members are zeroed. -/
def Packet.create : Packet where
  typeMessage := .register
  payloadLengh := 0
  mes := []
  clientAddr := .zero

structure RigisterPacket extends Packet where
  typeNode : TypeNode
deriving DecidableEq

structure PingPacket extends Packet
deriving DecidableEq

structure PongPacket extends Packet
deriving DecidableEq

structure NotifyPacket extends Packet where
  typeNode : TypeNode
  portNodeNotify : BitVec 16
  stateNodeNotify : StateList
deriving DecidableEq

def RigisterPacket.create : RigisterPacket := { Packet.create with typeNode := .base }
def PingPacket.create : PingPacket := { Packet.create with }
def PongPacket.create : PongPacket := { Packet.create with }
def NotifyPacket.create : NotifyPacket :=
  { Packet.create with typeNode := .base, portNodeNotify := 0, stateNodeNotify := .init }

inductive PacketObject
  | packet (value : Packet)
  | rigister (value : RigisterPacket)
  | ping (value : PingPacket)
  | pong (value : PongPacket)
  | notify (value : NotifyPacket)
deriving DecidableEq

def PacketObject.base : PacketObject → Packet
  | packet value => value
  | rigister value => value.toPacket
  | ping value => value.toPacket
  | pong value => value.toPacket
  | notify value => value.toPacket

/-- `int n = s.size()`: a 64-bit size cut to a 32-bit `int`. -/
def intOfSize (size : Nat) : Int := (BitVec.ofNat 32 size).toInt

def stringOfCString (cMessage : Bytes) : Bytes := cMessage.takeWhile (· ≠ 0)

def RigisterPacket.decode (packet : RigisterPacket) (buffer : Bytes) : Option RigisterPacket := do
  let (typeMessage, offset) ← getBits buffer 0 8
  let (payloadLengh, offset) ← getBits buffer offset 8
  let (typeNode, offset) ← getBits buffer offset 8
  let size : Int := payloadLengh.toInt - (offset / 8 : Nat)
  let mes ← if size > 0 then
      (getBitsString buffer offset size.toNat).map fun (cMessage, _) => stringOfCString cMessage
    else some []
  return { packet with
    typeMessage := .ofValue typeMessage.toNat
    payloadLengh := payloadLengh.truncate 8
    typeNode := .ofValue typeNode.toNat
    mes := mes }

/-- Unlike its REGISTER sibling it builds the string from the pointer and the size. -/
def PongPacket.decode (packet : PongPacket) (buffer : Bytes) : Option PongPacket := do
  let (typeMessage, offset) ← getBits buffer 0 8
  let (payloadLengh, offset) ← getBits buffer offset 8
  let size : Int := payloadLengh.toInt - (offset / 8 : Nat)
  let mes ← if size > 0 then
      (getBitsString buffer offset size.toNat).map fun (cMessage, _) => cMessage
    else some []
  return { packet with
    typeMessage := .ofValue typeMessage.toNat
    payloadLengh := payloadLengh.truncate 8
    mes := mes }

/-- The end of both encoders: the message cut to the room left, the closing NUL, and the
string made of all but the last byte of the buffer. -/
def encodeMessage (buffer : Bytes) (offset : Nat) (strMessage : Bytes)
    (playloadLength : BitVec 8) : Option Bytes := do
  let sizeMess := intOfSize strMessage.length
  let sizeRemain : Int := playloadLength.toNat - (offset / 8 : Nat)
  let (buffer, _) ← if sizeRemain > 0 then
      if sizeMess < sizeRemain then setBitsString buffer offset strMessage sizeMess
      else setBitsString buffer offset strMessage (sizeRemain - 1)
    else some (buffer, offset)
  let _ ← buffer[playloadLength.toNat]?
  return (buffer.set playloadLength.toNat 0).take playloadLength.toNat

def NotifyPacket.encode (packet : NotifyPacket) : Option Bytes := do
  let buffer : Bytes := List.replicate (notifyPlayloadLength.toNat + 1) 0
  let (buffer, offset) ← setBits buffer 0 (.ofNat 32 packet.typeMessage.value) 8
  let (buffer, offset) ← setBits buffer offset (packet.payloadLengh.zeroExtend 32) 8
  let (buffer, offset) ← setBits buffer offset (.ofNat 32 packet.typeNode.value) 8
  let (buffer, offset) ← setBits buffer offset (packet.portNodeNotify.zeroExtend 32) 16
  let (buffer, offset) ← setBits buffer offset (.ofNat 32 packet.stateNodeNotify.value) 8
  encodeMessage buffer offset packet.mes notifyPlayloadLength

def PingPacket.encode (packet : PingPacket) : Option Bytes := do
  let buffer : Bytes := List.replicate (pingPlayloadLength.toNat + 1) 0
  let (buffer, offset) ← setBits buffer 0 (.ofNat 32 packet.typeMessage.value) 8
  let (buffer, offset) ← setBits buffer offset (packet.payloadLengh.zeroExtend 32) 8
  encodeMessage buffer offset packet.mes pingPlayloadLength

end NodeManagement
