import Mathlib.Data.BitVec

/-!
Shared vocabulary of the program: the scoped enumerations and constants of `Utils.h`, the
client address, and the message a node thread leaves for NodeManagament.
-/

namespace NodeManagement

def maxSafeQueue : Nat := 100000
def retryNum : Nat := 5
def pingPlayloadLength : BitVec 8 := 20
def notifyPlayloadLength : BitVec 8 := 40

/-- A counter in an `int` after this many increments.  Beyond `INT_MAX` the compiled code wraps. -/
@[irreducible] def int32 (count : Nat) : Int := (count : Int).bmod (2 ^ 32)

theorem int32_of_lt {count : Nat} (small : count < 2 ^ 31) : int32 count = count := by
  unfold int32
  exact Int.bmod_eq_of_le (by omega) (by omega)

/-- Contents of a `std::string` or of a `char` array; `char` is eight bits wide. -/
abbrev Bytes := List (BitVec 8)

/-- A scoped enumeration holds every value of its underlying `int`, so a byte read from
the network may carry no enumerator: `unnamed beyond` is the value `beyond + 4`. -/
inductive TypeNode
  | base
  | dataPlane
  | controlPlane
  | oam
  | unnamed (beyond : Nat)
deriving DecidableEq

def TypeNode.value : TypeNode → Nat
  | base => 0
  | dataPlane => 1
  | controlPlane => 2
  | oam => 3
  | unnamed beyond => beyond + 4

def TypeNode.ofValue : Nat → TypeNode
  | 0 => base
  | 1 => dataPlane
  | 2 => controlPlane
  | 3 => oam
  | beyond + 4 => unnamed beyond

@[simp] theorem TypeNode.value_ofValue (value : Nat) : (ofValue value).value = value := by
  unfold ofValue
  split <;> rfl

/-- `unnamed beyond` is the value `beyond + 5`. -/
inductive TypeMessage
  | register
  | ping
  | pong
  | notify
  | other
  | unnamed (beyond : Nat)
deriving DecidableEq

def TypeMessage.value : TypeMessage → Nat
  | register => 0
  | ping => 1
  | pong => 2
  | notify => 3
  | other => 4
  | unnamed beyond => beyond + 5

def TypeMessage.ofValue : Nat → TypeMessage
  | 0 => register
  | 1 => ping
  | 2 => pong
  | 3 => notify
  | 4 => other
  | beyond + 5 => unnamed beyond

@[simp] theorem TypeMessage.value_ofValue (value : Nat) : (ofValue value).value = value := by
  unfold ofValue
  split <;> rfl

inductive StateList
  | init
  | alive
  | timeout
  | dead
  | max
deriving DecidableEq

def StateList.value : StateList → Nat
  | init => 0
  | alive => 1
  | timeout => 2
  | dead => 3
  | max => 4

/-- `sockaddr_in` without its constant family and padding; `sinPort` keeps the network
byte order in which the socket delivers it. -/
structure SockaddrIn where
  sinAddr : BitVec 32
  sinPort : BitVec 16
deriving DecidableEq

def SockaddrIn.zero : SockaddrIn := ⟨0, 0⟩

/-- `ntohs` on a little-endian host. -/
def ntohs (netshort : BitVec 16) : BitVec 16 :=
  netshort.extractLsb' 0 8 ++ netshort.extractLsb' 8 8

/-- `str_MessageState`: what a node thread pushes to `g_messageNodeQueue`.
`messageType` is 0 for a ping and 1 for a state change. -/
structure StrMessageState where
  nodeID : Int
  typeNode : TypeNode
  message : Bytes
  state : StateList
  messageType : BitVec 8
  clientAddr : SockaddrIn
deriving DecidableEq

/-- The default-constructed message that `handleSendData` declares before its loop. -/
def StrMessageState.initial : StrMessageState where
  nodeID := 0
  typeNode := .base
  message := []
  state := .init
  messageType := 0
  clientAddr := .zero

/-- `saveTime` appends the formatted local time, which the environment supplies. -/
def StrMessageState.saveTime (message : StrMessageState) (now : Bytes) : StrMessageState :=
  { message with message := message.message ++ now }

def StrMessageState.isPing (message : StrMessageState) : Bool := message.messageType == 0

def StrMessageState.isDead (message : StrMessageState) : Bool :=
  message.messageType == 1 && message.state == .dead

end NodeManagement
