import NodeManagement.Utils

/-!
The receiving half of `UDPConnector.cpp`.  The socket is the environment: it decides what each
call of `recvfrom` returns.
-/

namespace NodeManagement

def bufferSize : Nat := 256

def wsaEConnReset : Int := 10054

/-- The buffer always has its full size. -/
structure DataReceivedUDP where
  buffer : Bytes
  clientAddr : SockaddrIn
  size : buffer.length = bufferSize
deriving DecidableEq

def DataReceivedUDP.create : DataReceivedUDP where
  buffer := List.replicate bufferSize 0
  clientAddr := .zero
  size := List.length_replicate

/-- The ways in which `recvfrom` can return: with a datagram that fits in `BUFFER_SIZE - 1`
bytes, or with an error, after which `WSAGetLastError` gives `err` and the caller's address
holds whatever the call left there. -/
inductive Recvfrom
  | received (content : Bytes) (sender : SockaddrIn) (fits : content.length < bufferSize)
  | socketError (err : Int) (left : SockaddrIn)
deriving DecidableEq

def receivedBuffer (content : Bytes) : Bytes :=
  (content ++ List.replicate (bufferSize - content.length) 0).set content.length 0

@[simp] theorem receivedBuffer_length {content : Bytes} (fits : content.length < bufferSize) :
    (receivedBuffer content).length = bufferSize := by
  simp [receivedBuffer]
  omega

theorem receivedBuffer_eq (content : Bytes) :
    receivedBuffer content = content ++ List.replicate (bufferSize - content.length) 0 := by
  unfold receivedBuffer
  rw [List.set_append_right _ _ (Nat.le_refl _), Nat.sub_self]
  cases bufferSize - content.length <;> rfl

/-- Its out parameters `pBuffer` and `pTargetAddr` are the members of the caller's `dataUDP`. -/
def recvDataUDP (dataUDP : DataReceivedUDP) : Recvfrom → Int × DataReceivedUDP
  | .received content sender fits =>
      if content.length > 0 then
        (0, ⟨receivedBuffer content, sender, receivedBuffer_length fits⟩)
      else (0, { dataUDP with clientAddr := sender })
  | .socketError err left =>
      (if err ≠ wsaEConnReset then -1 else 0, { dataUDP with clientAddr := left })

/-- What `UDPReceived::handleRxThread` pushes once a call has returned; after an error it
waits and calls again. -/
def dataToPush (result : Recvfrom) : Option DataReceivedUDP :=
  let (ret, dataUDP) := recvDataUDP .create result
  if ret = 0 then some dataUDP else none

theorem dataToPush_received {content : Bytes} (sender : SockaddrIn)
    (fits : content.length < bufferSize) (some_ : content ≠ []) :
    ∃ dataUDP, dataToPush (.received content sender fits) = some dataUDP ∧
      dataUDP.clientAddr = sender ∧
      dataUDP.buffer = content ++ List.replicate (bufferSize - content.length) 0 := by
  have positive : content.length > 0 := List.length_pos_of_ne_nil some_
  refine ⟨⟨receivedBuffer content, sender, receivedBuffer_length fits⟩, ?_, rfl,
    receivedBuffer_eq content⟩
  simp [dataToPush, recvDataUDP, positive]

end NodeManagement
