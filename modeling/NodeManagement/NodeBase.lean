import NodeManagement.Utils

/-!
`NodeBase` and its four state handlers.  The thread that runs `handleThread` is modelled one
visible effect at a time: a flag change, a push to `g_messageNodeQueue`, the end of a wait.
-/

namespace NodeManagement

/-- The place in the handlers from which a ping is sent; `retry` is the loop of
`TimeoutState::handleState` with its counter `retryTime`. -/
inductive PingSite
  | init
  | alive
  | retry (retryTime : Nat)
deriving DecidableEq

/-- Where the node's thread stands, named after what it does next.  `sendPing` reads the static
counter `m_nodeID` into its message, and `pushPing` pushes the message; `retriesOver` is the test
behind the retry loop. -/
inductive NodePc
  | unstarted
  | loopHead
  | resetPong (site : PingSite)
  | sendPing (site : PingSite)
  | pushPing (site : PingSite) (nodeID : Int)
  | waitPong (site : PingSite)
  | sleepPing (site : PingSite)
  | notifyTimeout
  | retriesOver (retryTime : Nat)
  | notifyDead
  | deadToInit
  | deadStop
  | exited
deriving DecidableEq

/-- The members of `NodeBase`; the current state object is known by its `m_state`, and
`pc` stands for the thread `m_thread`.  `serial` is a ghost that tells the objects apart: how many
had been made when this one was. -/
structure NodeBase where
  type : TypeNode
  serial : Nat
  currentState : StateList
  clientAddr : SockaddrIn
  running : Bool
  pongState : Bool
  pc : NodePc
deriving DecidableEq

/-- Rows are the previous state, columns the next one. -/
def stateChangeTable : List (List Bool) :=
  [[false, true, true, false],
   [false, false, true, false],
   [false, true, false, true],
   [true, false, false, false]]

def stateChangeAllowed (previous next : StateList) : Bool :=
  (stateChangeTable.getD previous.value []).getD next.value false

@[simp] theorem stateChangeAllowed_eq (previous next : StateList) :
    stateChangeAllowed previous next = decide ((previous, next) ∈
      [(StateList.init, StateList.alive), (.init, .timeout), (.alive, .timeout),
        (.timeout, .alive), (.timeout, .dead), (.dead, .init)]) := by
  cases previous <;> cases next <;> rfl

def PingSite.state : PingSite → StateList
  | init => .init
  | alive => .alive
  | retry _ => .timeout

def pingText : Bytes := [0x50, 0x69, 0x6e, 0x67]
def timeoutText : Bytes := [0x54, 0x69, 0x6d, 0x65, 0x6f, 0x75, 0x74, 0x20]

namespace NodeBase

/-- The constructors of the three node classes, which differ in `m_type` only.  The state
object does not exist before `start`; no code reads it until then. -/
def create (type : TypeNode) (serial : Nat) : NodeBase where
  type := type
  serial := serial
  currentState := .init
  clientAddr := .zero
  running := false
  pongState := false
  pc := .unstarted

def getObjectNodeID (node : NodeBase) : Int := int32 node.serial

def setClientInfor (node : NodeBase) (clientAddr : SockaddrIn) : NodeBase :=
  { node with clientAddr := clientAddr }

def getPortInfo (node : NodeBase) : BitVec 16 := node.clientAddr.sinPort

def getClientInfor (node : NodeBase) : SockaddrIn := node.clientAddr

def start (node : NodeBase) : NodeBase :=
  if !node.running then { node with running := true, currentState := .init, pc := .loopHead }
  else node

def stop (node : NodeBase) : NodeBase :=
  if node.running then { node with running := false } else node

def changeState (node : NodeBase) (state : StateList) : NodeBase :=
  if stateChangeAllowed node.currentState state then { node with currentState := state }
  else node

def setPongState (node : NodeBase) (flag : Bool) : NodeBase := { node with pongState := flag }

/-- The mutex `m_mtx` is held by the node's own thread exactly while it sleeps: `wait_for`
releases it, and the other critical sections are single steps. -/
def ownsMutex (node : NodeBase) : Bool :=
  match node.pc with
  | .sleepPing _ => true
  | _ => false

/-- The message of `sendPing`; its first field is the static counter `m_nodeID`. -/
def pingMessage (node : NodeBase) (nodeID : Int) : StrMessageState where
  nodeID := nodeID
  typeNode := node.type
  message := pingText
  state := node.currentState
  messageType := 0
  clientAddr := node.getClientInfor

def timeoutMessage (node : NodeBase) (now : Bytes) : StrMessageState :=
  StrMessageState.saveTime {
    nodeID := node.getObjectNodeID
    typeNode := node.type
    message := timeoutText
    state := node.currentState
    messageType := 1
    clientAddr := node.getClientInfor } now

def deadMessage (node : NodeBase) (now : Bytes) : StrMessageState :=
  StrMessageState.saveTime {
    nodeID := node.getObjectNodeID
    typeNode := node.type
    message := []
    state := node.currentState
    messageType := 1
    clientAddr := node.getClientInfor } now

def goto (node : NodeBase) (pc : NodePc) : NodeBase := { node with pc := pc }

def handleThread (node : NodeBase) : NodeBase :=
  if !node.running then node.goto .exited
  else match node.currentState with
    | .init => node.goto (.resetPong .init)
    | .alive => node.goto (.resetPong .alive)
    | .timeout => node.goto .notifyTimeout
    | .dead => node.goto .notifyDead
    | .max => node

/-- `wait_for` with the predicate of the handlers: `none` while it still waits, otherwise the
value it returns. -/
def waitFor (node : NodeBase) (timedOut : Bool) : Option Bool :=
  if node.pongState || !node.running then some true
  else if timedOut then some false
  else none

def initAfterWait (node : NodeBase) (woken : Bool) : NodeBase :=
  if woken then
    if !node.running then node.goto .loopHead
    else (node.changeState .alive).goto .loopHead
  else (node.changeState .timeout).goto .loopHead

def aliveAfterWait (node : NodeBase) (woken : Bool) : NodeBase :=
  if woken then
    if !node.running then (node.changeState .init).goto .loopHead
    else node.goto (.sleepPing .alive)
  else (node.changeState .timeout).goto .loopHead

def retryLoop (node : NodeBase) (retryTime : Nat) : NodeBase :=
  if retryTime < retryNum then node.goto (.resetPong (.retry retryTime))
  else node.goto (.retriesOver retryTime)

def afterRetries (node : NodeBase) (retryTime : Nat) : NodeBase :=
  if retryTime = retryNum then (node.changeState .dead).goto .loopHead else node.goto .loopHead

def retryAfterWait (node : NodeBase) (retryTime : Nat) (woken : Bool) : NodeBase :=
  if woken then
    if !node.running then (node.changeState .init).goto .loopHead
    else (node.changeState .alive).goto (.sleepPing (.retry retryTime))
  else node.retryLoop (retryTime + 1)

def afterWait (node : NodeBase) (site : PingSite) (woken : Bool) : NodeBase :=
  match site with
  | .init => node.initAfterWait woken
  | .alive => node.aliveAfterWait woken
  | .retry retryTime => node.retryAfterWait retryTime woken

/-- One step of the node's thread: the node after it and the message it pushes, if any.
`nodeID` is the value of the static counter, `now` the formatted local time, and `timedOut`
says whether the period of a wait has passed. -/
def threadStep (node : NodeBase) (nodeID : Int) (now : Bytes) (timedOut : Bool) :
    Option (NodeBase × Option StrMessageState) :=
  match node.pc with
  | .unstarted => none
  | .loopHead => some (node.handleThread, none)
  | .resetPong site => some ((node.setPongState false).goto (.sendPing site), none)
  | .sendPing site => some (node.goto (.pushPing site nodeID), none)
  | .pushPing site readID => some (node.goto (.waitPong site), some (node.pingMessage readID))
  | .waitPong site => (node.waitFor timedOut).map fun woken => (node.afterWait site woken, none)
  | .sleepPing _ => some (node.goto .loopHead, none)
  | .notifyTimeout => some (node.retryLoop 0, some (node.timeoutMessage now))
  | .retriesOver retryTime => some (node.afterRetries retryTime, none)
  | .notifyDead => some (node.goto .deadToInit, some (node.deadMessage now))
  | .deadToInit => some ((node.changeState .init).goto .deadStop, none)
  | .deadStop => some (node.stop.goto .loopHead, none)
  | .exited => none

/-- `m_thread` has been started and has not returned from `handleThread`. -/
def threadLive (node : NodeBase) : Bool :=
  match node.pc with
  | .unstarted | .exited => false
  | _ => true

def pushedDead (node : NodeBase) : Bool :=
  match node.pc with
  | .loopHead => !node.running
  | .deadToInit | .deadStop | .exited => true
  | _ => false

end NodeBase

end NodeManagement
