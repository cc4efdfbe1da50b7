import NodeManagement.Client

/-!
`Node` of the Python client (`udp_client_gui.py`): the listener, the timers that answer pings, and
the thread of the GUI, one step at a time where they share `paused` and `active_timers`.
-/

namespace NodeManagement

/-- Where a timer stands: it waits and can be cancelled, `send_pong` has still to look at `paused`,
or it has done so and sends. -/
inductive PongTimer
  | waiting
  | expired
  | sending
deriving DecidableEq

inductive GuiPc
  | idle
  | cancelTimers (stopping : Bool)
  | setPause
  | closeSock
  | closed
deriving DecidableEq

/-- `activeTimers` are the timers that have not ended.  `display` is the list of the packets shown,
where `none` is an invalid one, and `registersSent`, `pingsReceived` and `pongsSent` are ghost
counters. -/
structure Node where
  nodeType : BitVec 8
  localPort : BitVec 16
  running : Bool
  paused : Bool
  activeTimers : List PongTimer
  listening : Bool
  sockOpen : Bool
  gui : GuiPc
  display : List (Option ParsedPacket)
  registersSent : Nat
  pingsReceived : Nat
  pongsSent : Nat
deriving DecidableEq

def Node.create (nodeType : BitVec 8) (localPort : BitVec 16) : Node where
  nodeType := nodeType
  localPort := localPort
  running := true
  paused := false
  activeTimers := []
  listening := true
  sockOpen := true
  gui := .idle
  display := []
  registersSent := 0
  pingsReceived := 0
  pongsSent := 0

inductive ClientEvent
  | receive (data : Bytes)
  | leave
  | expire (timer : Nat)
  | testPaused (timer : Nat)
  | sendPong (timer : Nat)
  | sendRegister
  | setPause (paused : Bool)
  | stop
  | proceed
deriving DecidableEq

def ClientEvent.received : ClientEvent → List Bytes
  | receive data => [data]
  | _ => []

def registerText : Bytes := [0x52, 0x45, 0x47, 0x49, 0x53, 0x54, 0x45, 0x52]
def pongMessageText : Bytes := [0x50, 0x4f, 0x4e, 0x47]

namespace Node

def receive (client : Node) (data : Bytes) : Node :=
  match data with
  | [] => client
  | pktType :: _ =>
      let parsed := parseIncomingPacket data
      let shown := { client with display := client.display ++ [parsed] }
      if parsed.isSome && pktType == 0x01 then
        { shown with
          pingsReceived := client.pingsReceived + 1
          activeTimers :=
            if client.paused then client.activeTimers else client.activeTimers ++ [.waiting] }
      else shown

/-- The datagrams that a packet makes: `sendto` fails once the socket is closed, and so does a
packet that is too long. -/
def sendto (client : Node) (packet : Option Bytes) : List Bytes :=
  if client.sockOpen then packet.toList else []

def step (client : Node) : ClientEvent → Option (Node × List Bytes)
  | .receive data =>
      if client.listening && client.sockOpen then some (client.receive data, []) else none
  | .leave =>
      if client.listening && (!client.running || !client.sockOpen) then
        some ({ client with listening := false }, [])
      else none
  | .expire timer =>
      if client.activeTimers[timer]? = some .waiting then
        some ({ client with activeTimers := client.activeTimers.set timer .expired }, [])
      else none
  | .testPaused timer =>
      if client.activeTimers[timer]? = some .expired then
        some ({ client with
          activeTimers :=
            if client.paused then client.activeTimers.eraseIdx timer
            else client.activeTimers.set timer .sending }, [])
      else none
  | .sendPong timer =>
      if client.activeTimers[timer]? = some .sending then
        let sent := client.sendto (buildPongPacket pongMessageText)
        some ({ client with
          activeTimers := client.activeTimers.eraseIdx timer
          pongsSent := client.pongsSent + sent.length }, sent)
      else none
  | .sendRegister =>
      if client.gui = .idle then
        let sent := client.sendto (buildRegisterPacket client.nodeType registerText)
        some ({ client with registersSent := client.registersSent + sent.length }, sent)
      else none
  | .setPause paused =>
      if client.gui = .idle then
        some ({ client with
          paused := paused
          gui := if paused then .cancelTimers false else .idle }, [])
      else none
  | .stop =>
      if client.gui = .idle then some ({ client with running := false, gui := .setPause }, [])
      else none
  | .proceed =>
      match client.gui with
      | .setPause => some ({ client with paused := true, gui := .cancelTimers true }, [])
      | .cancelTimers stopping =>
          some ({ client with
            activeTimers := client.activeTimers.filter (· ≠ .waiting)
            gui := if stopping then .closeSock else .idle }, [])
      | .closeSock => some ({ client with sockOpen := false, gui := .closed }, [])
      | .idle | .closed => none

def registerPacket (client : Node) : Bytes :=
  0x00 :: 0x0b :: client.nodeType :: registerText

def pongPacket : Bytes := 0x02 :: 0x06 :: pongMessageText

def isPong (datagram : Bytes) : Bool := datagram.head? == some 0x02

def isRegister (datagram : Bytes) : Bool := datagram.head? == some 0x00

def isPing (datagram : Bytes) : Bool :=
  match parseIncomingPacket datagram with
  | some (.ping _) => true
  | _ => false

structure StepMove (client : Node) (event : ClientEvent) (after : Node) (sent : List Bytes) :
    Prop where
  nodeType : after.nodeType = client.nodeType
  localPort : after.localPort = client.localPort
  kinds : ∀ datagram ∈ sent, datagram = client.registerPacket ∨ datagram = pongPacket
  registers : after.registersSent = client.registersSent + sent.countP isRegister
  pongs : after.pongsSent = client.pongsSent + sent.countP isPong
  pings : after.pingsReceived =
    client.pingsReceived + (event.received).countP isPing
  display : ∀ shown ∈ after.display, shown ∈ client.display ∨
    ∃ data ∈ event.received, data ≠ [] ∧ parseIncomingPacket data = shown
  answers : client.pongsSent + client.activeTimers.length ≤ client.pingsReceived →
    after.pongsSent + after.activeTimers.length ≤ after.pingsReceived

variable {client after : Node} {sent : List Bytes}

theorem isPing_cons (pktType : BitVec 8) (rest : Bytes) :
    isPing (pktType :: rest) =
      ((parseIncomingPacket (pktType :: rest)).isSome && pktType == 0x01) := by
  cases rest with
  | nil => rfl
  | cons totalLen rest =>
      simp only [isPing, parseIncomingPacket]
      generalize (decide ((pktType :: totalLen :: rest).length < totalLen.toNat) ||
        decide (totalLen.toNat < 2)) = short
      by_cases ping : pktType = 0x01
      · subst ping
        cases short <;> rfl
      · have other : (pktType == 0x01) = false := beq_false_of_ne ping
        rw [other, Bool.and_false]
        cases short with
        | true => rfl
        | false =>
            simp only [Bool.false_eq_true, if_false, if_neg ping]
            split
            next parsed =>
              split at parsed
              · split at parsed <;> simp at parsed
              · simp at parsed
            next => rfl

theorem receive_pings (client : Node) (data : Bytes) :
    (client.receive data).pingsReceived = client.pingsReceived + [data].countP isPing := by
  cases data with
  | nil => rfl
  | cons pktType rest =>
      rw [List.countP_singleton, isPing_cons]
      simp only [receive]
      split <;> rfl

theorem receive_same (client : Node) (data : Bytes) :
    (client.receive data).nodeType = client.nodeType ∧
      (client.receive data).localPort = client.localPort ∧
      (client.receive data).registersSent = client.registersSent ∧
      (client.receive data).pongsSent = client.pongsSent := by
  cases data with
  | nil => exact ⟨rfl, rfl, rfl, rfl⟩
  | cons pktType rest =>
      simp only [receive]
      split <;> exact ⟨rfl, rfl, rfl, rfl⟩

theorem receive_display {client : Node} {data : Bytes} {shown : Option ParsedPacket}
    (member : shown ∈ (client.receive data).display) :
    shown ∈ client.display ∨ data ≠ [] ∧ parseIncomingPacket data = shown := by
  cases data with
  | nil => exact .inl member
  | cons pktType rest =>
      have added : shown ∈ client.display ++ [parseIncomingPacket (pktType :: rest)] := by
        simp only [receive] at member
        split at member <;> exact member
      rcases List.mem_append.mp added with old | new
      · exact .inl old
      · exact .inr ⟨by simp, (List.mem_singleton.mp new).symm⟩

theorem receive_answers {client : Node} {data : Bytes}
    (answers : client.pongsSent + client.activeTimers.length ≤ client.pingsReceived) :
    (client.receive data).pongsSent + (client.receive data).activeTimers.length ≤
      (client.receive data).pingsReceived := by
  cases data with
  | nil => exact answers
  | cons pktType rest =>
      simp only [receive]
      split
      · split
        · exact Nat.le_succ_of_le answers
        · simp only [List.length_append, List.length_singleton]
          omega
      · exact answers

theorem StepMove.of_sent {event : ClientEvent} (deaf : event.received = [])
    (nodeType : after.nodeType = client.nodeType) (localPort : after.localPort = client.localPort)
    (display : after.display = client.display) (pings : after.pingsReceived = client.pingsReceived)
    (kinds : ∀ datagram ∈ sent, datagram = client.registerPacket ∨ datagram = pongPacket)
    (registers : after.registersSent = client.registersSent + sent.countP isRegister)
    (pongs : after.pongsSent = client.pongsSent + sent.countP isPong)
    (timers : sent.countP isPong + after.activeTimers.length ≤ client.activeTimers.length) :
    client.StepMove event after sent where
  nodeType := nodeType
  localPort := localPort
  kinds := kinds
  registers := registers
  pongs := pongs
  pings := by rw [deaf, pings]; rfl
  display := fun shown member => .inl (display ▸ member)
  answers := by
    intro answers
    rw [pongs, pings]
    omega

theorem StepMove.of_quiet {event : ClientEvent} (deaf : event.received = [])
    (nodeType : after.nodeType = client.nodeType) (localPort : after.localPort = client.localPort)
    (display : after.display = client.display) (pings : after.pingsReceived = client.pingsReceived)
    (registers : after.registersSent = client.registersSent)
    (pongs : after.pongsSent = client.pongsSent)
    (timers : after.activeTimers.length ≤ client.activeTimers.length) :
    client.StepMove event after [] :=
  .of_sent deaf nodeType localPort display pings (by simp) registers pongs
    (by simpa using timers)

theorem step_move {event : ClientEvent} (taken : client.step event = some (after, sent)) :
    client.StepMove event after sent := by
  cases event with
  | receive data =>
      obtain ⟨_, same⟩ := Option.ite_none_right_eq_some.mp taken
      obtain ⟨rfl, rfl⟩ := Prod.mk.inj (Option.some.inj same)
      obtain ⟨nodeType, localPort, registers, pongs⟩ := receive_same client data
      refine ⟨nodeType, localPort, by simp, registers, pongs, receive_pings client data,
        fun shown member => ?_, receive_answers⟩
      exact (receive_display member).imp_right fun new => ⟨data, List.mem_singleton_self _, new⟩
  | leave =>
      obtain ⟨_, same⟩ := Option.ite_none_right_eq_some.mp taken
      obtain ⟨rfl, rfl⟩ := Prod.mk.inj (Option.some.inj same)
      exact .of_quiet rfl rfl rfl rfl rfl rfl rfl (le_refl _)
  | expire timer =>
      obtain ⟨_, same⟩ := Option.ite_none_right_eq_some.mp taken
      obtain ⟨rfl, rfl⟩ := Prod.mk.inj (Option.some.inj same)
      exact .of_quiet rfl rfl rfl rfl rfl rfl rfl (by simp)
  | testPaused timer =>
      obtain ⟨_, same⟩ := Option.ite_none_right_eq_some.mp taken
      obtain ⟨rfl, rfl⟩ := Prod.mk.inj (Option.some.inj same)
      refine .of_quiet rfl rfl rfl rfl rfl rfl rfl ?_
      dsimp only
      split
      · exact (List.eraseIdx_sublist _ _).length_le
      · simp
  | sendPong timer =>
      obtain ⟨found, same⟩ := Option.ite_none_right_eq_some.mp taken
      obtain ⟨rfl, rfl⟩ := Prod.mk.inj (Option.some.inj same)
      obtain ⟨inside, _⟩ := List.getElem?_eq_some_iff.mp found
      have length := List.length_eraseIdx_add_one inside
      simp only [sendto]
      cases client.sockOpen with
      | false => exact .of_quiet rfl rfl rfl rfl rfl rfl rfl (by dsimp only; omega)
      | true =>
          refine .of_sent rfl rfl rfl rfl rfl ?_ rfl rfl ?_
          · exact fun datagram member => .inr (List.mem_singleton.mp member)
          · show 1 + _ ≤ _
            dsimp only
            omega
  | sendRegister =>
      obtain ⟨_, same⟩ := Option.ite_none_right_eq_some.mp taken
      obtain ⟨rfl, rfl⟩ := Prod.mk.inj (Option.some.inj same)
      simp only [sendto]
      cases client.sockOpen with
      | false => exact .of_quiet rfl rfl rfl rfl rfl rfl rfl (le_refl _)
      | true =>
          refine .of_sent rfl rfl rfl rfl rfl ?_ rfl rfl ?_
          · exact fun datagram member => .inl (List.mem_singleton.mp member)
          · show 0 + _ ≤ _
            dsimp only
            omega
  | setPause paused =>
      obtain ⟨_, same⟩ := Option.ite_none_right_eq_some.mp taken
      obtain ⟨rfl, rfl⟩ := Prod.mk.inj (Option.some.inj same)
      exact .of_quiet rfl rfl rfl rfl rfl rfl rfl (le_refl _)
  | stop =>
      obtain ⟨_, same⟩ := Option.ite_none_right_eq_some.mp taken
      obtain ⟨rfl, rfl⟩ := Prod.mk.inj (Option.some.inj same)
      exact .of_quiet rfl rfl rfl rfl rfl rfl rfl (le_refl _)
  | proceed =>
      simp only [step] at taken
      split at taken
      next =>
        obtain ⟨rfl, rfl⟩ := Prod.mk.inj (Option.some.inj taken)
        exact .of_quiet rfl rfl rfl rfl rfl rfl rfl (le_refl _)
      next =>
        obtain ⟨rfl, rfl⟩ := Prod.mk.inj (Option.some.inj taken)
        exact .of_quiet rfl rfl rfl rfl rfl rfl rfl (List.length_filter_le _ _)
      next =>
        obtain ⟨rfl, rfl⟩ := Prod.mk.inj (Option.some.inj taken)
        exact .of_quiet rfl rfl rfl rfl rfl rfl rfl (le_refl _)
      next => simp at taken
      next => simp at taken

end Node

end NodeManagement
