import NodeManagement.AnsweredPings
import NodeManagement.ClientNode
import NodeManagement.HandledDatagrams
import NodeManagement.Library.Network

/-!
The program and the windows of the test client together, with the network between them, which may
lose and copy a datagram and deliver it in any order.
-/

namespace NodeManagement

open Transition

theorem ntohs_ntohs (netshort : BitVec 16) : ntohs (ntohs netshort) = netshort := by
  apply BitVec.eq_of_getLsbD_eq
  intro bit bound
  simp only [ntohs, BitVec.getLsbD_append, BitVec.getLsbD_extractLsb']
  grind

/-- The type and the port of each window of `MultiNodeApp`; no two sockets have one port. -/
structure Setup where
  nodes : List (BitVec 8 × BitVec 16)
  distinct : (nodes.map Prod.snd).Nodup

/-- Where the datagrams of the client come from: `SERVER_IP` is 127.0.0.1, and `htons` does what
`ntohs` does. -/
def Node.clientAddr (client : Node) : SockaddrIn := ⟨0x0100007f, ntohs client.localPort⟩

def wsaEMsgSize : Int := 10040

def Recvfrom.ofDatagram (sender : SockaddrIn) (content : Bytes) : Recvfrom :=
  if fits : content.length < bufferSize then .received content sender fits
  else .socketError wsaEMsgSize sender

def meaningOf (datagram : SockaddrIn × Bytes) : Option PacketObject :=
  (dataToPush (.ofDatagram datagram.1 datagram.2)).bind DataReceivedUDP.meaning

def SystemEvent.isDatagram : SystemEvent → Bool
  | .receive (.received _ _ _) => true
  | _ => false

/-- In `toServer` a datagram is kept with its sender, in `toClients` with its target. -/
structure Deployment where
  server : System
  clients : List Node
  toServer : Network.State (SockaddrIn × Bytes)
  toClients : Network.State (SockaddrIn × Bytes)
deriving DecidableEq

def Deployment.initial (setup : Setup) : Deployment where
  server := .initial
  clients := setup.nodes.map fun (nodeType, localPort) => .create nodeType localPort
  toServer := .empty
  toClients := .empty

inductive DeploymentEvent
  | server (event : SystemEvent)
  | client (index : Nat) (event : ClientEvent)
  | toServer (place : Nat)
  | toClient (place index : Nat)
  | failToServer (fault : Network.Fault)
  | failToClients (fault : Network.Fault)

namespace Deployment

def serverStep (deployment : Deployment) (event : SystemEvent) : Option Deployment :=
  (deployment.server.step event).map fun after =>
    { deployment with
      server := after
      toClients := deployment.toClients.send (after.sent.drop deployment.server.sent.length) }

def clientStep (deployment : Deployment) (index : Nat) (client : Node) (event : ClientEvent) :
    Option Deployment :=
  (client.step event).map fun (after, datagrams) =>
    { deployment with
      clients := deployment.clients.set index after
      toServer := deployment.toServer.send
        (datagrams.map fun datagram => (client.clientAddr, datagram)) }

def step (deployment : Deployment) : DeploymentEvent → Option Deployment
  | .server event => if event.isDatagram then none else deployment.serverStep event
  | .client index event =>
      (deployment.clients[index]?).bind fun client =>
        if event.received.isEmpty then deployment.clientStep index client event else none
  | .toServer place =>
      (deployment.toServer.deliver place).bind fun ((sender, content), network) =>
        { deployment with toServer := network }.serverStep
          (.receive (.ofDatagram sender content))
  | .toClient place index =>
      (deployment.toClients.deliver place).bind fun ((target, content), network) =>
        (deployment.clients[index]?).bind fun client =>
          if client.clientAddr = target then
            { deployment with toClients := network }.clientStep index client (.receive content)
          else none
  | .failToServer fault =>
      (deployment.toServer.fail fault).map fun network => { deployment with toServer := network }
  | .failToClients fault =>
      (deployment.toClients.fail fault).map fun network =>
        { deployment with toClients := network }

def Reachable (setup : Setup) (deployment : Deployment) : Prop :=
  Reaches step anyStep (initial setup) deployment

def Stamped (stamp : Bytes → Prop) (deployment : Deployment) : DeploymentEvent → Prop
  | .server event => deployment.server.Stamped stamp event
  | _ => True

inductive StepMove (deployment : Deployment) : DeploymentEvent → Deployment → Prop
  | server {taken : DeploymentEvent} {event : SystemEvent} {after : System}
      {arrived : List (SockaddrIn × Bytes)} {network : Network.State (SockaddrIn × Bytes)}
      (passes : deployment.toServer.Passes arrived network)
      (brought : arrived.filterMap meaningOf = event.brings.toList)
      (clocked : ∀ stamp, deployment.Stamped stamp taken → deployment.server.Stamped stamp event)
      (stepped : deployment.server.step event = some after) :
      StepMove deployment taken { deployment with
        server := after
        toServer := network
        toClients := deployment.toClients.send
          (after.sent.drop deployment.server.sent.length) }
  | client {taken : DeploymentEvent} {index : Nat} {event : ClientEvent} {client after : Node}
      {datagrams : List Bytes} {network : Network.State (SockaddrIn × Bytes)}
      (found : deployment.clients[index]? = some client)
      (passes : deployment.toClients.Passes
        (event.received.map fun data => (client.clientAddr, data)) network)
      (moves : client.StepMove event after datagrams) :
      StepMove deployment taken { deployment with
        clients := deployment.clients.set index after
        toServer := deployment.toServer.send
          (datagrams.map fun datagram => (client.clientAddr, datagram))
        toClients := network }
  | failToServer {fault : Network.Fault} {network : Network.State (SockaddrIn × Bytes)}
      (failed : deployment.toServer.fail fault = some network) :
      StepMove deployment (.failToServer fault) { deployment with toServer := network }
  | failToClients {fault : Network.Fault} {network : Network.State (SockaddrIn × Bytes)}
      (failed : deployment.toClients.fail fault = some network) :
      StepMove deployment (.failToClients fault) { deployment with toClients := network }

end Deployment

theorem meaning_of_nothing {dataUDP : DataReceivedUDP}
    (zero : dataUDP.buffer = DataReceivedUDP.create.buffer) : dataUDP.meaning = none := by
  have decoded : decodeReceived dataUDP = some (.rigister (receivedRegister dataUDP)) := by
    rw [decodeReceived_eq, zero]
    rfl
  have type : (receivedRegister dataUDP).typeNode = .base := by
    simp only [receivedRegister, zero]
    rfl
  simp [DataReceivedUDP.meaning, decoded, type, TypeNode.isMonitored]

theorem brings_of_noDatagram {event : SystemEvent} (noDatagram : event.isDatagram = false) :
    event.brings = none := by
  cases event with
  | receive result =>
      cases result with
      | received => simp [SystemEvent.isDatagram] at noDatagram
      | socketError err left =>
          simp only [SystemEvent.brings, dataToPush, recvDataUDP]
          split
          · exact meaning_of_nothing rfl
          · rfl
  | _ => rfl

namespace Deployment

variable {deployment after : Deployment}

theorem step_move {event : DeploymentEvent} (taken : deployment.step event = some after) :
    deployment.StepMove event after := by
  cases event with
  | server event =>
      obtain ⟨noDatagram, moved⟩ := Option.ite_none_left_eq_some.mp taken
      obtain ⟨server, stepped, rfl⟩ := Option.map_eq_some_iff.mp moved
      exact .server (.nothing _)
        (by rw [brings_of_noDatagram (by simpa using noDatagram)]; rfl) (fun _ => id) stepped
  | client index event =>
      obtain ⟨client, found, moved⟩ := Option.bind_eq_some_iff.mp taken
      obtain ⟨deaf, moved⟩ := Option.ite_none_right_eq_some.mp moved
      obtain ⟨⟨moved, datagrams⟩, stepped, rfl⟩ := Option.map_eq_some_iff.mp moved
      rw [List.isEmpty_iff] at deaf
      exact .client found (by rw [deaf]; exact .nothing _) (Node.step_move stepped)
  | toServer place =>
      obtain ⟨⟨⟨sender, content⟩, network⟩, delivered, moved⟩ := Option.bind_eq_some_iff.mp taken
      obtain ⟨server, stepped, rfl⟩ := Option.map_eq_some_iff.mp moved
      refine .server (.of_deliver delivered) ?_ (fun stamp _ => ?_) stepped
      · simp only [List.filterMap_cons, List.filterMap_nil, meaningOf, SystemEvent.brings]
        cases (dataToPush (.ofDatagram sender content)).bind DataReceivedUDP.meaning <;> rfl
      · exact trivial
  | toClient place index =>
      obtain ⟨⟨⟨target, content⟩, network⟩, delivered, moved⟩ := Option.bind_eq_some_iff.mp taken
      obtain ⟨client, found, moved⟩ := Option.bind_eq_some_iff.mp moved
      obtain ⟨rfl, sends⟩ := Option.ite_none_right_eq_some.mp moved
      obtain ⟨⟨moved, datagrams⟩, stepped, rfl⟩ := Option.map_eq_some_iff.mp sends
      refine .client found ?_ (Node.step_move stepped)
      exact .of_deliver delivered
  | failToServer fault =>
      obtain ⟨network, failed, rfl⟩ := Option.map_eq_some_iff.mp taken
      exact .failToServer failed
  | failToClients fault =>
      obtain ⟨network, failed, rfl⟩ := Option.map_eq_some_iff.mp taken
      exact .failToClients failed

def tally (kind : Bytes → Bool) (clientAddr : SockaddrIn)
    (datagrams : List (SockaddrIn × Bytes)) : Nat :=
  datagrams.countP fun datagram => decide (datagram.1 = clientAddr) && kind datagram.2

structure Balanced (deployment : Deployment) (client : Node) : Prop where
  registers : client.registersSent =
    tally Node.isRegister client.clientAddr deployment.toServer.sent
  pongs : client.pongsSent = tally Node.isPong client.clientAddr deployment.toServer.sent
  pings : client.pingsReceived =
    tally Node.isPing client.clientAddr deployment.toClients.delivered
  answers : client.pongsSent + client.activeTimers.length ≤ client.pingsReceived
  display : ∀ shown ∈ client.display, ∃ data,
    (client.clientAddr, data) ∈ deployment.toClients.delivered ∧ parseIncomingPacket data = shown

structure Invariant (setup : Setup) (deployment : Deployment) : Prop where
  server : System.Reachable deployment.server
  nodes : deployment.clients.map (fun client => (client.nodeType, client.localPort)) = setup.nodes
  balanced : ∀ client ∈ deployment.clients, deployment.Balanced client
  wire : deployment.toClients.sent = deployment.server.sent
  senders : ∀ datagram ∈ deployment.toServer.sent, ∃ client ∈ deployment.clients,
    datagram.1 = client.clientAddr ∧
      (datagram.2 = client.registerPacket ∨ datagram.2 = Node.pongPacket)
  received : deployment.server.meanings = deployment.toServer.delivered.filterMap meaningOf
  toServer : deployment.toServer.Genuine
  toClients : deployment.toClients.Genuine

variable {setup : Setup}

theorem tally_append (kind : Bytes → Bool) (clientAddr : SockaddrIn)
    (first second : List (SockaddrIn × Bytes)) :
    tally kind clientAddr (first ++ second) =
      tally kind clientAddr first + tally kind clientAddr second :=
  List.countP_append

theorem tally_own (kind : Bytes → Bool) (clientAddr : SockaddrIn) (datagrams : List Bytes) :
    tally kind clientAddr (datagrams.map fun datagram => (clientAddr, datagram)) =
      datagrams.countP kind := by
  simp [tally, List.countP_map, Function.comp_def]

theorem tally_other (kind : Bytes → Bool) {clientAddr other : SockaddrIn}
    (apart : other ≠ clientAddr) (datagrams : List Bytes) :
    tally kind clientAddr (datagrams.map fun datagram => (other, datagram)) = 0 := by
  simp [tally, List.countP_map, Function.comp_def, apart]

theorem initial_invariant (setup : Setup) : (initial setup).Invariant setup where
  server := .refl
  nodes := by simp [initial, Node.create, Function.comp_def]
  balanced := by
    intro client member
    obtain ⟨⟨nodeType, localPort⟩, _, rfl⟩ := List.mem_map.mp member
    exact ⟨rfl, rfl, rfl, le_refl _, by simp [Node.create]⟩
  wire := rfl
  senders := by simp [initial, Network.State.empty]
  received := rfl
  toServer := Network.State.empty_genuine
  toClients := Network.State.empty_genuine

theorem Invariant.eq_of_port (inv : deployment.Invariant setup) {first second : Node}
    {place other : Nat} (here : deployment.clients[place]? = some first)
    (there : deployment.clients[other]? = some second)
    (port : first.localPort = second.localPort) : place = other := by
  have distinct : (deployment.clients.map Node.localPort).Nodup := by
    have ports := setup.distinct
    rw [← inv.nodes, List.map_map] at ports
    exact ports
  obtain ⟨inside, _⟩ := List.getElem?_eq_some_iff.mp here
  refine (List.getElem?_inj (by simpa using inside) distinct).mp ?_
  rw [List.getElem?_map, List.getElem?_map, here, there, Option.map_some, Option.map_some, port]

theorem clientAddr_inj {first second : Node}
    (same : first.clientAddr.sinPort = second.clientAddr.sinPort) :
    first.localPort = second.localPort := by
  have ports := congrArg ntohs same
  simpa only [Node.clientAddr, ntohs_ntohs] using ports

theorem Balanced.of_other {client : Node} (balanced : deployment.Balanced client)
    {other : SockaddrIn} (apart : other ≠ client.clientAddr) {sent received : List Bytes}
    (toServer : after.toServer.sent =
      deployment.toServer.sent ++ sent.map fun datagram => (other, datagram))
    (toClients : after.toClients.delivered =
      deployment.toClients.delivered ++ received.map fun datagram => (other, datagram)) :
    after.Balanced client := by
  refine ⟨?_, ?_, ?_, balanced.answers, fun shown member => ?_⟩
  · rw [toServer, tally_append, tally_other _ apart]
    exact balanced.registers
  · rw [toServer, tally_append, tally_other _ apart]
    exact balanced.pongs
  · rw [toClients, tally_append, tally_other _ apart]
    exact balanced.pings
  · obtain ⟨data, delivered, parsed⟩ := balanced.display shown member
    exact ⟨data, toClients ▸ List.mem_append_left _ delivered, parsed⟩

theorem Balanced.of_move {client moved : Node} {event : ClientEvent} {datagrams : List Bytes}
    (balanced : deployment.Balanced client) (moves : client.StepMove event moved datagrams)
    (toServer : after.toServer.sent = deployment.toServer.sent ++
      datagrams.map fun datagram => (client.clientAddr, datagram))
    (toClients : after.toClients.delivered = deployment.toClients.delivered ++
      event.received.map fun datagram => (client.clientAddr, datagram)) :
    after.Balanced moved := by
  have same : moved.clientAddr = client.clientAddr := by
    simp only [Node.clientAddr, moves.localPort]
  refine ⟨?_, ?_, ?_, moves.answers balanced.answers, fun shown member => ?_⟩
  · rw [same, toServer, tally_append, tally_own, ← balanced.registers]
    exact moves.registers
  · rw [same, toServer, tally_append, tally_own, ← balanced.pongs]
    exact moves.pongs
  · rw [same, toClients, tally_append, tally_own, ← balanced.pings]
    exact moves.pings
  · rw [same, toClients]
    rcases moves.display shown member with old | ⟨data, new, _, parsed⟩
    · obtain ⟨data, delivered, parsed⟩ := balanced.display shown old
      exact ⟨data, List.mem_append_left _ delivered, parsed⟩
    · exact ⟨data, List.mem_append_right _ (List.mem_map_of_mem new), parsed⟩

theorem Balanced.of_same {client : Node} (balanced : deployment.Balanced client)
    (toServer : after.toServer.sent = deployment.toServer.sent)
    (toClients : after.toClients.delivered = deployment.toClients.delivered) :
    after.Balanced client := by
  obtain ⟨registers, pongs, pings, answers, display⟩ := balanced
  exact ⟨toServer ▸ registers, toServer ▸ pongs, toClients ▸ pings, answers,
    toClients ▸ display⟩

theorem exists_same {clients others : List Node}
    (names : clients.map (fun client => (client.nodeType, client.localPort)) =
      others.map fun client => (client.nodeType, client.localPort)) {client : Node}
    (member : client ∈ clients) : ∃ other ∈ others, other.clientAddr = client.clientAddr ∧
      other.registerPacket = client.registerPacket := by
  have named := List.mem_map_of_mem
    (f := fun client : Node => (client.nodeType, client.localPort)) member
  rw [names] at named
  obtain ⟨other, inside, same⟩ := List.mem_map.mp named
  obtain ⟨nodeType, localPort⟩ := Prod.mk.inj same
  exact ⟨other, inside, by simp only [Node.clientAddr, localPort],
    by simp only [Node.registerPacket, nodeType]⟩

theorem sent_extends {system later : System} {event : SystemEvent}
    (taken : system.step event = some later) :
    later.sent = system.sent ++ later.sent.drop system.sent.length := by
  have grows : system.sent <+: later.sent := by
    cases System.step_move taken with
    | transmit => exact List.prefix_append _ _
    | _ => exact List.prefix_refl _
  obtain ⟨added, same⟩ := grows
  simp [← same]

theorem step_invariant {event : DeploymentEvent} (inv : deployment.Invariant setup)
    (taken : deployment.step event = some after) : after.Invariant setup := by
  cases step_move taken with
  | server passes brought _ stepped =>
      refine ⟨.step inv.server trivial stepped, inv.nodes, fun client member => ?_, ?_, ?_, ?_,
        passes.genuine inv.toServer, inv.toClients.send _⟩
      · exact (inv.balanced client member).of_same passes.sent rfl
      · exact (congrArg (· ++ _) inv.wire).trans (sent_extends stepped).symm
      · rw [passes.sent]
        exact inv.senders
      · rw [System.step_meanings stepped, inv.received, ← brought, passes.delivered,
          List.filterMap_append]
  | @client _ index event client moved datagrams network found passes moves =>
      have member := List.mem_of_getElem? found
      have names : ((deployment.clients.set index moved).map fun client =>
          (client.nodeType, client.localPort)) =
          deployment.clients.map fun client => (client.nodeType, client.localPort) :=
        KeyedList.map_set_of_same found (by rw [moves.nodeType, moves.localPort])
      refine ⟨inv.server, names.trans inv.nodes, fun other inside => ?_,
        passes.sent.trans inv.wire, fun datagram inside => ?_, inv.received,
        inv.toServer.send _, passes.genuine inv.toClients⟩
      · obtain ⟨place, here⟩ := List.mem_iff_getElem?.mp inside
        rw [List.getElem?_set] at here
        split at here
        next same =>
          obtain ⟨_, stepped⟩ := Option.ite_none_right_eq_some.mp here
          obtain rfl := Option.some.inj stepped
          exact (inv.balanced client member).of_move moves rfl passes.delivered
        next apart =>
          have different : client.clientAddr ≠ other.clientAddr := fun same =>
            apart (inv.eq_of_port found here (clientAddr_inj (congrArg SockaddrIn.sinPort same)))
          exact (inv.balanced other (List.mem_of_getElem? here)).of_other different rfl
            passes.delivered
      · have sender : ∃ sender ∈ deployment.clients, datagram.1 = sender.clientAddr ∧
            (datagram.2 = sender.registerPacket ∨ datagram.2 = Node.pongPacket) := by
          rcases List.mem_append.mp inside with old | new
          · exact inv.senders datagram old
          · obtain ⟨content, sent, rfl⟩ := List.mem_map.mp new
            exact ⟨client, member, rfl, moves.kinds content sent⟩
        obtain ⟨sender, known, address, kind⟩ := sender
        obtain ⟨same, stays, sameAddress, samePacket⟩ := exists_same names.symm known
        exact ⟨same, stays, address.trans sameAddress.symm, samePacket ▸ kind⟩
  | failToServer failed =>
      obtain ⟨sent, delivered, genuine⟩ := Network.State.fail_genuine failed
      refine ⟨inv.server, inv.nodes, fun client member => ?_, inv.wire, ?_, ?_,
        genuine inv.toServer, inv.toClients⟩
      · exact (inv.balanced client member).of_same sent rfl
      · rw [sent]
        exact inv.senders
      · rw [delivered]
        exact inv.received
  | failToClients failed =>
      obtain ⟨sent, delivered, genuine⟩ := Network.State.fail_genuine failed
      exact ⟨inv.server, inv.nodes,
        fun client member => (inv.balanced client member).of_same rfl delivered,
        sent.trans inv.wire, inv.senders, inv.received, inv.toServer, genuine inv.toClients⟩

theorem reachable_invariant (reached : Reachable setup deployment) :
    deployment.Invariant setup :=
  Reaches.invariant (Invariant setup) reached (initial_invariant setup)
    fun _ _ _ inv _ taken => step_invariant inv taken

end Deployment

end NodeManagement
