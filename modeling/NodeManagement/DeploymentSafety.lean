import NodeManagement.Deployment

/-!
What the program knows of its clients and they of it, over every run, whatever the network does:
a node stands for a client that has registered, an ALIVE one for a client that has answered a ping,
and a client is shown nothing but pings and timeouts.
-/

namespace NodeManagement

open Transition

def Node.Sent (client : Node) : PacketObject → Prop
  | .rigister packet => packet.clientAddr = client.clientAddr ∧
      packet.typeNode = .ofValue client.nodeType.toNat ∧ 0 < client.registersSent
  | .pong packet => packet.clientAddr = client.clientAddr ∧ 0 < client.pongsSent
  | _ => False

def PacketObject.isPongFrom (clientAddr : SockaddrIn) : PacketObject → Bool
  | pong value => value.clientAddr == clientAddr
  | _ => false

def DeploymentEvent.copies : DeploymentEvent → Bool
  | failToServer fault | failToClients fault => fault.copies
  | _ => false

theorem dataToPush_ofDatagram (sender : SockaddrIn) (content : Bytes) (some_ : content ≠ [])
    (fits : content.length < bufferSize) :
    ∃ dataUDP, dataToPush (.ofDatagram sender content) = some dataUDP ∧
      dataUDP.clientAddr = sender ∧
      dataUDP.buffer = content ++ List.replicate (bufferSize - content.length) 0 := by
  rw [Recvfrom.ofDatagram, dif_pos fits]
  exact dataToPush_received sender fits some_

theorem meaningOf_pongPacket (sender : SockaddrIn) :
    ∃ packet : PongPacket, packet.clientAddr = sender ∧
      meaningOf (sender, Node.pongPacket) = some (.pong packet) := by
  obtain ⟨dataUDP, pushed, address, buffer⟩ :=
    dataToPush_ofDatagram sender Node.pongPacket (by decide) (by decide)
  refine ⟨receivedPong dataUDP, address, ?_⟩
  have first : dataUDP.buffer.getD 0 0 = 0x02 := by rw [buffer]; rfl
  have decoded : decodeReceived dataUDP = some (.pong (receivedPong dataUDP)) := by
    rw [decodeReceived_eq, first, if_neg (by decide), if_pos rfl]
  simp [meaningOf, pushed, DataReceivedUDP.meaning, decoded]

theorem meaningOf_registerPacket (sender : SockaddrIn) (client : Node) {object : PacketObject}
    (meant : meaningOf (sender, client.registerPacket) = some object) :
    ∃ packet : RigisterPacket, object = .rigister packet ∧ packet.clientAddr = sender ∧
      packet.typeNode = .ofValue client.nodeType.toNat := by
  obtain ⟨dataUDP, pushed, address, buffer⟩ :=
    dataToPush_ofDatagram sender client.registerPacket (by simp [Node.registerPacket])
      (show 11 < bufferSize by decide)
  have first : dataUDP.buffer.getD 0 0 = 0x00 := by rw [buffer]; rfl
  have third : dataUDP.buffer.getD 2 0 = client.nodeType := by rw [buffer]; rfl
  have decoded : decodeReceived dataUDP = some (.rigister (receivedRegister dataUDP)) := by
    rw [decodeReceived_eq, first, if_pos rfl]
  refine ⟨receivedRegister dataUDP, ?_, address, by simp only [receivedRegister, third]⟩
  simp only [meaningOf, pushed, Option.bind_some, DataReceivedUDP.meaning, decoded,
    Option.ite_none_right_eq_some, Option.some.injEq] at meant
  exact meant.2.symm

namespace Deployment

variable {setup : Setup} {deployment : Deployment}

theorem tally_pos {kind : Bytes → Bool} {clientAddr : SockaddrIn}
    {datagrams : List (SockaddrIn × Bytes)} :
    0 < tally kind clientAddr datagrams ↔
      ∃ content, (clientAddr, content) ∈ datagrams ∧ kind content = true := by
  simp only [tally, List.countP_pos_iff, Bool.and_eq_true, decide_eq_true_eq]
  constructor
  · rintro ⟨⟨address, content⟩, member, rfl, kind⟩
    exact ⟨content, member, kind⟩
  · rintro ⟨content, member, kind⟩
    exact ⟨_, member, rfl, kind⟩

theorem Invariant.sent_of_meaning (inv : deployment.Invariant setup) {received : Reception}
    (member : received ∈ deployment.server.reception) {object : PacketObject}
    (meant : received.dataUDP.meaning = some object) :
    ∃ client ∈ deployment.clients, client.Sent object := by
  have known : object ∈ deployment.server.meanings :=
    List.mem_filterMap.mpr ⟨received, member, meant⟩
  rw [inv.received] at known
  obtain ⟨⟨sender, content⟩, delivered, meant⟩ := List.mem_filterMap.mp known
  have sent := inv.toServer.delivered delivered
  obtain ⟨client, inside, rfl, kind⟩ := inv.senders _ sent
  have balanced := inv.balanced client inside
  refine ⟨client, inside, ?_⟩
  rcases kind with rfl | rfl
  · obtain ⟨packet, rfl, address, type⟩ := meaningOf_registerPacket _ client meant
    exact ⟨address, type, balanced.registers ▸ tally_pos.mpr ⟨_, sent, rfl⟩⟩
  · obtain ⟨packet, address, same⟩ := meaningOf_pongPacket client.clientAddr
    obtain rfl := Option.some.inj (same.symm.trans meant)
    exact ⟨address, balanced.pongs ▸ tally_pos.mpr ⟨_, sent, by decide⟩⟩

theorem Invariant.client_of_registered (inv : deployment.Invariant setup) {type : TypeNode}
    {clientAddr : SockaddrIn}
    (registered : Registered deployment.server.reception type clientAddr) :
    ∃ client ∈ deployment.clients, client.clientAddr = clientAddr ∧
      .ofValue client.nodeType.toNat = type ∧ 0 < client.registersSent := by
  obtain ⟨received, member, registers⟩ := registered
  obtain ⟨packet, meant, rfl, rfl⟩ : ∃ packet : RigisterPacket,
      received.dataUDP.meaning = some (.rigister packet) ∧ packet.typeNode = type ∧
        packet.clientAddr = clientAddr := by
    unfold Reception.registers at registers
    split at registers
    next packet decoded =>
      obtain ⟨monitored, same⟩ := Option.ite_none_right_eq_some.mp registers
      obtain ⟨type, address⟩ := Prod.mk.inj (Option.some.inj same)
      exact ⟨packet, by simp [DataReceivedUDP.meaning, decoded, monitored], type, address⟩
    next => simp at registers
  obtain ⟨client, inside, address, type, sent⟩ := inv.sent_of_meaning member meant
  exact ⟨client, inside, address.symm, type.symm, sent⟩

theorem Invariant.client_of_heard (inv : deployment.Invariant setup) {port : BitVec 16}
    (heard : deployment.server.Heard port) :
    ∃ client ∈ deployment.clients, client.clientAddr.sinPort = port ∧ 0 < client.pongsSent := by
  obtain ⟨packet, handled, pong, isPong, rfl⟩ := heard
  have inPipeline : packet.content ∈ deployment.server.ledger.pipeline :=
    List.mem_append_left _ (List.mem_map_of_mem (List.mem_append_left _ handled))
  obtain ⟨received, member, decoded⟩ := List.mem_filterMap.mp
    ((System.reachable_pipeline_sublist inv.server).1.subset inPipeline)
  obtain ⟨object, made, same⟩ := Option.map_eq_some_iff.mp decoded
  obtain ⟨_, rfl⟩ := Prod.mk.inj same
  rw [isPong] at made
  have meant : received.dataUDP.meaning = some (.pong pong) := by
    simp [DataReceivedUDP.meaning, made]
  obtain ⟨client, inside, address, sent⟩ := inv.sent_of_meaning member meant
  exact ⟨client, inside, congrArg SockaddrIn.sinPort address.symm, sent⟩

/-- Over every run, whatever the network does: a node stands for a client of its address and type
that has sent a REGISTER, and an ALIVE node for one that was sent a ping, received it and has
answered. -/
theorem alive_answered (reached : Reachable setup deployment) {node : NodeBase}
    (member : node ∈ deployment.server.monitor.registry.vecNodeBase) :
    ∃ client ∈ deployment.clients, client.clientAddr = node.clientAddr ∧
      .ofValue client.nodeType.toNat = node.type ∧ 0 < client.registersSent ∧
      (node.currentState = .alive → 0 < client.pongsSent ∧ 0 < client.pingsReceived ∧
        ∃ content, (client.clientAddr, content) ∈ deployment.server.sent ∧
          Node.isPing content = true) := by
  have inv := reachable_invariant reached
  have stamped : System.ReachableBy (System.Stamped fun _ => True) deployment.server :=
    inv.server.mono fun _ event _ => by cases event <;> trivial
  have registered := (System.reachableBy_traceable stamped).2.2.entries node member
  obtain ⟨client, inside, address, type, sent⟩ := inv.client_of_registered registered
  refine ⟨client, inside, address, type, sent, fun alive => ?_⟩
  have heard := System.heard_handled inv.server node member (by simp [NodeBase.heard, alive])
  obtain ⟨answerer, insideToo, port, answered⟩ := inv.client_of_heard heard
  obtain ⟨place, here⟩ := List.mem_iff_getElem?.mp inside
  obtain ⟨other, there⟩ := List.mem_iff_getElem?.mp insideToo
  have same : answerer.clientAddr.sinPort = client.clientAddr.sinPort := by
    rw [port, address, NodeBase.getPortInfo]
  obtain rfl := inv.eq_of_port there here (clientAddr_inj same)
  obtain rfl := Option.some.inj (here.symm.trans there)
  have balanced := inv.balanced client inside
  have pinged : 0 < client.pingsReceived := by
    have answers := balanced.answers
    omega
  obtain ⟨content, delivered, ping⟩ := tally_pos.mp (balanced.pings ▸ pinged)
  exact ⟨answered, pinged, content, inv.wire ▸ inv.toClients.delivered delivered, ping⟩

theorem server_reachableBy {stamp : Bytes → Prop}
    (reached : Reaches step (Stamped stamp) (initial setup) deployment) :
    System.ReachableBy (System.Stamped stamp) deployment.server := by
  refine Reaches.invariant (fun deployment : Deployment =>
    System.ReachableBy (System.Stamped stamp) deployment.server) reached Reaches.refl ?_
  intro before event after known stamped taken
  cases step_move taken with
  | server _ _ clocked stepped => exact .step known (clocked stamp stamped) stepped
  | client | failToServer | failToClients => exact known

/-- Over every run, whatever the network does: each packet that a client shows is a ping or the
timeout of a client that has registered, stamped by the clock, and one that has not registered is
shown nothing. -/
theorem display_understood {stamp : Bytes → Prop}
    (reached : Reaches step (Stamped stamp) (initial setup) deployment) {client : Node}
    (member : client ∈ deployment.clients) :
    (∀ shown ∈ client.display, shown = some (.ping (pingText ++ List.replicate 14 0)) ∨
      ∃ subject ∈ deployment.clients, 0 < subject.registersSent ∧ ∃ now, stamp now ∧
        shown = some (.notify subject.nodeType.toNat subject.localPort.toNat
          StateList.timeout.value (notifyText (timeoutText ++ now)))) ∧
      (client.display ≠ [] → 0 < client.registersSent) := by
  have inv := reachable_invariant (reached.mono fun _ _ _ => trivial)
  have traceable := (System.reachableBy_traceable (server_reachableBy reached)).2.2
  have wellSent {shown : Option ParsedPacket} (inside : shown ∈ client.display) :
      ∃ content, WellSent stamp deployment.server.reception
        (client.clientAddr, content) ∧ parseIncomingPacket content = shown := by
    obtain ⟨content, delivered, parsed⟩ := (inv.balanced client member).display shown inside
    have sent := inv.wire ▸ inv.toClients.delivered delivered
    exact ⟨content, traceable.outgoing _ (List.mem_append_left _ sent), parsed⟩
  constructor
  · intro shown inside
    obtain ⟨content, sent, rfl⟩ := wellSent inside
    cases sent with
    | ping _ _ parsed => exact .inl parsed
    | @notify _ _ _ _ _ now _ about stamped _ parsed =>
        obtain ⟨subject, insideToo, rfl, rfl, registered⟩ := inv.client_of_registered about
        refine .inr ⟨subject, insideToo, registered, now, stamped, parsed.trans ?_⟩
        simp only [Node.clientAddr, ntohs_ntohs, TypeNode.value_ofValue]
  · intro shows
    obtain ⟨shown, inside⟩ := List.exists_mem_of_ne_nil _ shows
    obtain ⟨content, sent, rfl⟩ := wellSent inside
    have registered : ∃ type, Registered deployment.server.reception type client.clientAddr := by
      cases sent with
      | ping registered | notify registered => exact ⟨_, registered⟩
    obtain ⟨type, registered⟩ := registered
    obtain ⟨sender, insideToo, address, _, sent⟩ := inv.client_of_registered registered
    obtain ⟨place, here⟩ := List.mem_iff_getElem?.mp member
    obtain ⟨other, there⟩ := List.mem_iff_getElem?.mp insideToo
    obtain rfl := inv.eq_of_port there here
      (clientAddr_inj (congrArg SockaddrIn.sinPort address))
    obtain rfl := Option.some.inj (here.symm.trans there)
    exact sent

def NoCopies (_ : Deployment) (event : DeploymentEvent) : Prop := event.copies = false

theorem step_conserved {event : DeploymentEvent} {after : Deployment}
    (noCopies : deployment.NoCopies event)
    (conserved : deployment.toServer.Conserved ∧ deployment.toClients.Conserved)
    (taken : deployment.step event = some after) :
    after.toServer.Conserved ∧ after.toClients.Conserved := by
  cases step_move taken with
  | server passes => exact ⟨passes.conserved conserved.1, conserved.2.send _⟩
  | client _ passes => exact ⟨conserved.1.send _, passes.conserved conserved.2⟩
  | @failToServer fault _ failed =>
      cases fault with
      | lose => exact ⟨(Network.State.Passes.of_lose failed).conserved conserved.1, conserved.2⟩
      | copy => simp [NoCopies, DeploymentEvent.copies, Network.Fault.copies] at noCopies
  | @failToClients fault _ failed =>
      cases fault with
      | lose => exact ⟨conserved.1, (Network.State.Passes.of_lose failed).conserved conserved.2⟩
      | copy => simp [NoCopies, DeploymentEvent.copies, Network.Fault.copies] at noCopies

theorem Invariant.handled_le (inv : deployment.Invariant setup) (clientAddr : SockaddrIn) :
    (deployment.server.handled.countP fun packet => packet.object.isPongFrom clientAddr) ≤
      tally Node.isPong clientAddr deployment.toServer.delivered := by
  calc deployment.server.handled.countP (fun packet => packet.object.isPongFrom clientAddr)
      ≤ deployment.server.meanings.countP fun object => object.isPongFrom clientAddr := by
        refine System.handled_countP_le inv.server fun object fromClient => ?_
        cases object with
        | rigister => simp [PacketObject.isPongFrom] at fromClient
        | _ => rfl
    _ = deployment.toServer.delivered.countP fun datagram =>
          ((meaningOf datagram).map fun object => object.isPongFrom clientAddr).getD false := by
        rw [inv.received, List.countP_filterMap]
    _ ≤ tally Node.isPong clientAddr deployment.toServer.delivered := by
        refine List.countP_mono_left ?_
        rintro ⟨sender, content⟩ delivered counted
        obtain ⟨client, _, _, kind⟩ := inv.senders _ (inv.toServer.delivered delivered)
        rcases kind with rfl | rfl
        · cases meant : meaningOf (sender, client.registerPacket) with
          | none => simp [meant] at counted
          | some object =>
              obtain ⟨packet, rfl, _⟩ := meaningOf_registerPacket sender client meant
              simp [meant, PacketObject.isPongFrom] at counted
        · obtain ⟨packet, rfl, meant⟩ := meaningOf_pongPacket sender
          have same : packet.clientAddr = clientAddr := by
            simpa [meant, PacketObject.isPongFrom] using counted
          simp [same]
          rfl

/-- Over every run in which the network copies nothing, the PONGs of a client that are handled, the
PONGs it has sent, the pings it has received and the pings sent to it bound each other. -/
theorem pongs_within_pings (reached : Reaches step NoCopies (initial setup) deployment)
    {client : Node} (member : client ∈ deployment.clients) :
    (deployment.server.handled.countP fun packet =>
        packet.object.isPongFrom client.clientAddr) ≤ client.pongsSent ∧
      client.pongsSent ≤ client.pingsReceived ∧
      client.pingsReceived ≤ tally Node.isPing client.clientAddr deployment.server.sent := by
  have inv := reachable_invariant (reached.mono fun _ _ _ => trivial)
  have conserved := Reaches.invariant
    (fun deployment => deployment.toServer.Conserved ∧ deployment.toClients.Conserved) reached
    ⟨Network.State.empty_conserved, Network.State.empty_conserved⟩
    fun _ _ _ conserved noCopies taken => step_conserved noCopies conserved taken
  have balanced := inv.balanced client member
  refine ⟨?_, ?_, ?_⟩
  · rw [balanced.pongs]
    exact (inv.handled_le client.clientAddr).trans (conserved.1.countP_le _)
  · have answers := balanced.answers
    omega
  · rw [balanced.pings, ← inv.wire]
    exact conserved.2.countP_le _

end Deployment

def twoWindows : Setup := ⟨[(0x01, 0x4e20), (0x02, 0x4e21)], by decide⟩

def serverTakes : List DeploymentEvent :=
  .toServer 0 :: [SystemEvent.popBuffer, .checkBuffer, .pushMessageReceived, .popReceived,
    .checkReceived, .handleReceived].map .server

def serverSends : List DeploymentEvent :=
  [SystemEvent.popMessage, .checkMessage, .handleMessage, .pushPacket, .popSend, .checkSend,
    .transmit].map .server

def toldEvents : List DeploymentEvent :=
  (startNodeManagamentEvents ++ startIOHandlerEvents).map .server ++
    .client 0 .sendRegister :: serverTakes ++ .client 1 .sendRegister :: serverTakes ++
    List.replicate 4 (.server (.nodeStep 0 timeoutTime.putTime false)) ++ serverSends ++
    [.toClient 0 0, .client 0 (.expire 0), .client 0 (.testPaused 0), .client 0 (.sendPong 0)] ++
    serverTakes ++ .server (.nodeStep 0 timeoutTime.putTime false) ::
    List.replicate 7 (.server (.nodeStep 1 timeoutTime.putTime true)) ++ serverSends ++
    .failToClients (.lose 0) :: serverSends ++ [.toClient 0 0]

def DeploymentEvent.toldBy (time : Tm) : DeploymentEvent → Bool
  | .server (.nodeStep _ now _) => now == time.putTime
  | event => !event.copies

theorem DeploymentEvent.allowed_of_toldBy {time : Tm} (deployment : Deployment)
    (event : DeploymentEvent) (checked : event.toldBy time = true) :
    deployment.NoCopies event ∧ deployment.Stamped IsLocalTime event := by
  cases event with
  | server event =>
      cases event with
      | nodeStep index now timedOut => exact ⟨rfl, time, beq_iff_eq.mp checked⟩
      | _ => exact ⟨rfl, trivial⟩
  | _ => exact ⟨by simpa [toldBy, Deployment.NoCopies] using checked, trivial⟩

theorem toldEvents_told :
    ∃ deployment : Deployment, ∃ first second told untold,
      Reaches Deployment.step (fun deployment event => deployment.NoCopies event ∧
        deployment.Stamped IsLocalTime event) (.initial twoWindows) deployment ∧
      deployment.server.monitor.registry.vecNodeBase = [first, second] ∧
      first.currentState = .alive ∧ second.currentState = .timeout ∧
      deployment.clients = [told, untold] ∧ told.display.length = 2 ∧
      deployment.server.handled.length = 3 := by
  obtain ⟨deployment, reached, found⟩ := exists_reaches Deployment.step
    (fun _ event => event.toldBy timeoutTime)
    (fun deployment => decide (
      deployment.server.monitor.registry.vecNodeBase.map NodeBase.currentState =
          [.alive, .timeout] ∧
        deployment.clients.map (fun client => client.display.length) = [2, 0] ∧
        deployment.server.handled.length = 3)) (Deployment.initial twoWindows) toldEvents
    DeploymentEvent.allowed_of_toldBy (by decide +kernel) (by decide +kernel)
  obtain ⟨entries, clients, handled⟩ := of_decide_eq_true found
  obtain ⟨first, others, entries, alive, other⟩ := List.map_eq_cons_iff.mp entries
  obtain ⟨second, rfl, timeout⟩ := List.map_eq_singleton_iff.mp other
  obtain ⟨told, rest, clients, shows, restShows⟩ := List.map_eq_cons_iff.mp clients
  obtain ⟨untold, rfl, _⟩ := List.map_eq_singleton_iff.mp restShows
  exact ⟨deployment, first, second, told, untold, reached, entries, alive, timeout, clients,
    shows, handled⟩

theorem alive_answered_two_windows :
    ∃ deployment : Deployment, deployment.clients.length = 2 ∧
      ∃ node ∈ deployment.server.monitor.registry.vecNodeBase, node.currentState = .alive ∧
      ∃ client ∈ deployment.clients, client.clientAddr = node.clientAddr ∧
        .ofValue client.nodeType.toNat = node.type ∧ 0 < client.registersSent ∧
        (node.currentState = .alive → 0 < client.pongsSent ∧ 0 < client.pingsReceived ∧
          ∃ content, (client.clientAddr, content) ∈ deployment.server.sent ∧
            Node.isPing content = true) := by
  obtain ⟨deployment, first, second, told, untold, reached, entries, alive, _, windows, _⟩ :=
    toldEvents_told
  have member : first ∈ deployment.server.monitor.registry.vecNodeBase := by simp [entries]
  exact ⟨deployment, by simp [windows], first, member, alive,
    Deployment.alive_answered (reached.mono fun _ _ _ => trivial) member⟩

theorem display_understood_two_windows :
    ∃ deployment : Deployment, deployment.clients.length = 2 ∧
      ∃ client ∈ deployment.clients, client.display.length = 2 ∧
      (∀ shown ∈ client.display, shown = some (.ping (pingText ++ List.replicate 14 0)) ∨
        ∃ subject ∈ deployment.clients, 0 < subject.registersSent ∧ ∃ now, IsLocalTime now ∧
          shown = some (.notify subject.nodeType.toNat subject.localPort.toNat
            StateList.timeout.value (notifyText (timeoutText ++ now)))) ∧
      (client.display ≠ [] → 0 < client.registersSent) := by
  obtain ⟨deployment, _, _, told, untold, reached, _, _, _, windows, shows, _⟩ := toldEvents_told
  have member : told ∈ deployment.clients := by simp [windows]
  exact ⟨deployment, by simp [windows], told, member, shows,
    Deployment.display_understood (reached.mono fun _ _ allowed => allowed.2) member⟩

theorem pongs_within_pings_two_windows :
    ∃ deployment : Deployment, deployment.clients.length = 2 ∧
      ∃ client ∈ deployment.clients, deployment.server.handled.length = 3 ∧
      (deployment.server.handled.countP fun packet =>
        packet.object.isPongFrom client.clientAddr) ≤ client.pongsSent ∧
      client.pongsSent ≤ client.pingsReceived ∧
      client.pingsReceived ≤
        Deployment.tally Node.isPing client.clientAddr deployment.server.sent := by
  obtain ⟨deployment, _, _, told, untold, reached, _, _, _, windows, _, handled⟩ :=
    toldEvents_told
  have member : told ∈ deployment.clients := by simp [windows]
  exact ⟨deployment, by simp [windows], told, member, handled,
    Deployment.pongs_within_pings (reached.mono fun _ _ allowed => allowed.1) member⟩

end NodeManagement
