import NodeManagement.Utils

/-!
The packet functions of the Python client (`udp_client_gui.py`).  Text stays a byte string:
the UTF-8 conversions at the two ends are left out.
-/

namespace NodeManagement

/-- `build_register_packet`; `none` is the `ValueError` for a packet that is too long. -/
def buildRegisterPacket (nodeType : BitVec 8) (msgBytes : Bytes) : Option Bytes :=
  let payload := nodeType :: msgBytes
  let payloadLen := 2 + payload.length
  if payloadLen > 255 then none
  else some (0x00 :: .ofNat 8 payloadLen :: payload)

def buildPongPacket (msgBytes : Bytes) : Option Bytes :=
  let payloadLen := 2 + msgBytes.length
  if payloadLen > 255 then none
  else some (0x02 :: .ofNat 8 payloadLen :: msgBytes)

inductive ParsedPacket
  | ping (message : Bytes)
  | notify (typeNode port state : Nat) (message : Bytes)
  | unknown (pktType : Nat) (payload : Bytes)
deriving DecidableEq

def parseIncomingPacket (data : Bytes) : Option ParsedPacket :=
  match data with
  | pktType :: totalLen :: _ =>
      if data.length < totalLen.toNat || totalLen.toNat < 2 then none
      else
        let payload := (data.take totalLen.toNat).drop 2
        if pktType = 0x01 then some (.ping payload)
        else if pktType = 0x03 then
          match payload with
          | typeNode :: portLow :: portHigh :: state :: msgBytes =>
              -- struct.unpack('<H', ...) reads the low byte first
              some (.notify typeNode.toNat (portLow.toNat + 256 * portHigh.toNat) state.toNat
                msgBytes)
          | _ => none
        else some (.unknown pktType.toNat payload)
  | _ => none

end NodeManagement
