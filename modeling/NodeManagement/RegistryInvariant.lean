import NodeManagement.RegistryMap
import NodeManagement.Monitor

/-!
Two invariants and what keeps them: the registry is well formed, and the messages on their
way belong to entries of the registry, a DEAD message being its sender's last.
-/

namespace NodeManagement

open KeyedList

structure Registry.WellFormed (registry : Registry) : Prop where
  ports : registry.PortsDistinct
  increasing : (registry.vecNodeBase.map NodeBase.serial).Pairwise (· < ·)
  counted : ∀ node ∈ registry.vecNodeBase, node.serial ≤ registry.made
  monitored : ∀ node ∈ registry.vecNodeBase, node.type.isMonitored = true
  coherent : ∀ node ∈ registry.vecNodeBase, node.Coherent

namespace Registry

variable {registry : Registry}

theorem WellFormed.empty : Registry.empty.WellFormed :=
  ⟨List.nodup_nil, .nil, by simp [Registry.empty], by simp [Registry.empty],
    by simp [Registry.empty]⟩

theorem WellFormed.eq_of_serial (formed : registry.WellFormed) {node other : NodeBase}
    (member : node ∈ registry.vecNodeBase) (otherMember : other ∈ registry.vecNodeBase)
    (same : node.serial = other.serial) : node = other := by
  have distinct : (registry.vecNodeBase.map NodeBase.serial).Nodup :=
    formed.increasing.imp fun less => ne_of_lt less
  exact List.inj_on_of_nodup_map distinct member otherMember same

theorem WellFormed.eq_of_getPortInfo (formed : registry.WellFormed) {node other : NodeBase}
    (member : node ∈ registry.vecNodeBase) (otherMember : other ∈ registry.vecNodeBase)
    (same : node.getPortInfo = other.getPortInfo) : node = other :=
  List.inj_on_of_nodup_map formed.ports member otherMember same

theorem WellFormed.replaced (formed : registry.WellFormed) {nodes : List NodeBase}
    (ports : nodes.map NodeBase.getPortInfo = registry.vecNodeBase.map NodeBase.getPortInfo)
    (ids : nodes.map NodeBase.serial = registry.vecNodeBase.map NodeBase.serial)
    (origin : ∀ after ∈ nodes, ∃ node ∈ registry.vecNodeBase, node.SameIdentity after)
    (coherent : ∀ after ∈ nodes, after.Coherent) :
    Registry.WellFormed { registry with vecNodeBase := nodes } := by
  refine ⟨?_, ?_, ?_, ?_, coherent⟩
  · simpa [PortsDistinct, ports] using formed.ports
  · simpa [ids] using formed.increasing
  · intro after member
    obtain ⟨node, old, _, same, _⟩ := origin after member
    exact same ▸ formed.counted node old
  · intro after member
    obtain ⟨node, old, same, _, _⟩ := origin after member
    exact same ▸ formed.monitored node old

theorem WellFormed.register (formed : registry.WellFormed) (packet : RigisterPacket) :
    (registry.checkRegisterMessage packet).WellFormed := by
  have ports := registry.handle_portsDistinct formed.ports (.register packet)
  simp only [handle] at ports
  rw [checkRegisterMessage_eq] at ports ⊢
  split at ports
  next added =>
    rw [if_pos added]
    simp only [Bool.and_eq_true] at added
    refine ⟨ports, ?_, ?_, ?_, ?_⟩
    · simp only [List.map_append, List.map_cons, List.map_nil,
        RigisterPacket.newNode_serial]
      refine List.pairwise_append.mpr ⟨formed.increasing, by simp, ?_⟩
      intro id member other new
      obtain ⟨node, old, rfl⟩ := List.mem_map.mp member
      simp only [List.mem_singleton] at new
      have bound := formed.counted node old
      omega
    · intro node member
      rcases List.mem_append.mp member with old | new
      · have bound := formed.counted node old
        simp only
        omega
      · simp only [List.mem_singleton] at new
        simp [new]
    · intro node member
      rcases List.mem_append.mp member with old | new
      · exact formed.monitored node old
      · simp only [List.mem_singleton] at new
        simp [new, added.1]
    · intro node member
      rcases List.mem_append.mp member with old | new
      · exact formed.coherent node old
      · simp only [List.mem_singleton] at new
        exact new ▸ packet.newNode_coherent _
  next unchanged =>
    rw [if_neg unchanged]
    exact formed

theorem mem_checkPongMessage {packet : Packet} {after : NodeBase}
    (member : after ∈ (registry.checkPongMessage packet).vecNodeBase) :
    ∃ node ∈ registry.vecNodeBase, node.SameIdentity after ∧
      (node.Coherent → after.Coherent) ∧ after.pushedDead = node.pushedDead ∧
        after.pc = node.pc := by
  rw [checkPongMessage_eq] at member
  rcases mem_updateFirst member with old | ⟨node, old, _, rfl⟩
  · exact ⟨after, old, .refl after, id, rfl, rfl⟩
  · exact ⟨node, old, node.setPongState_identity true,
      fun coherent => NodeBase.setPongState_coherent coherent true,
      node.setPongState_pushedDead true, rfl⟩

theorem mem_checkPongMessage_of_mem (packet : Packet) {node : NodeBase}
    (member : node ∈ registry.vecNodeBase) :
    ∃ after ∈ (registry.checkPongMessage packet).vecNodeBase, node.SameIdentity after ∧
      after.pushedDead = node.pushedDead := by
  have kept : (registry.checkPongMessage packet).vecNodeBase.map
      (fun node => (node.type, node.serial, node.clientAddr, node.pushedDead)) =
      registry.vecNodeBase.map
        (fun node => (node.type, node.serial, node.clientAddr, node.pushedDead)) := by
    rw [checkPongMessage_eq]
    exact map_updateFirst _ (fun _ => rfl)
  have present := List.mem_map_of_mem
    (f := fun node : NodeBase =>
      (node.type, node.serial, node.clientAddr, node.pushedDead)) member
  rw [← kept] at present
  obtain ⟨after, new, same⟩ := List.mem_map.mp present
  simp only [Prod.mk.injEq] at same
  exact ⟨after, new, ⟨same.1, same.2.1, same.2.2.1⟩, same.2.2.2⟩

theorem WellFormed.pong (formed : registry.WellFormed) (packet : Packet) :
    (registry.checkPongMessage packet).WellFormed := by
  have nodes : registry.checkPongMessage packet =
      { registry with vecNodeBase := (registry.checkPongMessage packet).vecNodeBase } := by
    rw [checkPongMessage_eq]
  rw [nodes]
  apply formed.replaced
  · rw [checkPongMessage_eq]
    exact map_updateFirst NodeBase.getPortInfo (fun _ => rfl)
  · rw [checkPongMessage_eq]
    exact map_updateFirst NodeBase.serial (fun _ => rfl)
  · intro after member
    obtain ⟨node, old, same, _⟩ := mem_checkPongMessage member
    exact ⟨node, old, same⟩
  · intro after member
    obtain ⟨node, old, _, coherent, _⟩ := mem_checkPongMessage member
    exact coherent (formed.coherent node old)

theorem WellFormed.erase (formed : registry.WellFormed) (port : BitVec 16) :
    Registry.WellFormed { registry with
      vecNodeBase := eraseFirst NodeBase.getPortInfo port registry.vecNodeBase } := by
  have kept : (eraseFirst NodeBase.getPortInfo port registry.vecNodeBase).Sublist
      registry.vecNodeBase := eraseFirst_sublist
  exact ⟨formed.ports.sublist (kept.map _), formed.increasing.sublist (kept.map _),
    fun node member => formed.counted node (kept.subset member),
    fun node member => formed.monitored node (kept.subset member),
    fun node member => formed.coherent node (kept.subset member)⟩

theorem WellFormed.handleMessage (formed : registry.WellFormed) (message : StrMessageState) :
    (registry.handleMessage message).1.WellFormed := by
  rw [handleMessage_registry]
  split
  · exact formed.erase _
  · exact formed

theorem WellFormed.set (formed : registry.WellFormed) {index : Nat} {node after : NodeBase}
    (found : registry.vecNodeBase[index]? = some node) (same : node.SameIdentity after)
    (coherent : after.Coherent) :
    Registry.WellFormed { registry with
      vecNodeBase := registry.vecNodeBase.set index after } := by
  apply formed.replaced
  · exact map_set_of_same found (congrArg SockaddrIn.sinPort same.2.2)
  · exact map_set_of_same found same.2.1
  · intro other member
    rcases List.mem_or_eq_of_mem_set member with old | rfl
    · exact ⟨other, old, .refl other⟩
    · exact ⟨node, List.mem_of_getElem? found, same⟩
  · intro other member
    rcases List.mem_or_eq_of_mem_set member with old | rfl
    · exact formed.coherent other old
    · exact coherent

end Registry

def PostedMessage.SentBy (posted : PostedMessage) (node : NodeBase) : Prop :=
  node.serial = posted.sender ∧ node.clientAddr = posted.message.clientAddr

structure MessagesFrom (nodes : List NodeBase) (pending : List PostedMessage) : Prop where
  senders : ∀ posted ∈ pending, ∃ node ∈ nodes, posted.SentBy node
  deadLast : pending.Pairwise fun earlier later =>
    earlier.sender = later.sender → earlier.message.isDead = false
  deadPushed : ∀ posted ∈ pending, posted.message.isDead = true →
    ∀ node ∈ nodes, node.serial = posted.sender → node.pushedDead = true

namespace MessagesFrom

variable {nodes nodesAfter : List NodeBase} {pending : List PostedMessage}

theorem sublist (sent : MessagesFrom nodes pending) {fewer : List PostedMessage}
    (kept : fewer.Sublist pending) : MessagesFrom nodes fewer :=
  ⟨fun posted member => sent.senders posted (kept.subset member), sent.deadLast.sublist kept,
    fun posted member => sent.deadPushed posted (kept.subset member)⟩

theorem replaced (sent : MessagesFrom nodes pending)
    (kept : ∀ node ∈ nodes, ∃ after ∈ nodesAfter, node.SameIdentity after)
    (origin : ∀ after ∈ nodesAfter,
      (∀ posted ∈ pending, posted.sender ≠ after.serial) ∨
      ∃ node ∈ nodes, node.SameIdentity after ∧
        (node.pushedDead = true → after.pushedDead = true)) :
    MessagesFrom nodesAfter pending := by
  refine ⟨?_, sent.deadLast, ?_⟩
  · intro posted member
    obtain ⟨node, old, sender, address⟩ := sent.senders posted member
    obtain ⟨after, new, same⟩ := kept node old
    exact ⟨after, new, same.2.1.trans sender, same.2.2.trans address⟩
  · intro posted member dead after new sender
    rcases origin after new with none | ⟨node, old, same, grows⟩
    · exact absurd sender.symm (none posted member)
    · exact grows (sent.deadPushed posted member dead node old (same.2.1.symm.trans sender))

theorem register {registry : Registry} (formed : registry.WellFormed)
    (sent : MessagesFrom registry.vecNodeBase pending) (packet : RigisterPacket) :
    MessagesFrom (registry.checkRegisterMessage packet).vecNodeBase pending := by
  rw [Registry.checkRegisterMessage_eq]
  split
  · apply sent.replaced
    · intro node member
      exact ⟨node, by simp [member], .refl node⟩
    · intro after member
      rcases List.mem_append.mp member with old | new
      · exact .inr ⟨after, old, .refl after, id⟩
      · left
        intro posted waiting same
        obtain ⟨node, old, sender, _⟩ := sent.senders posted waiting
        have bound := formed.counted node old
        simp only [List.mem_singleton] at new
        simp only [new, RigisterPacket.newNode_serial] at same
        omega
  · exact sent

theorem pong {registry : Registry} (sent : MessagesFrom registry.vecNodeBase pending)
    (packet : Packet) : MessagesFrom (registry.checkPongMessage packet).vecNodeBase pending := by
  apply sent.replaced
  · intro node member
    obtain ⟨after, new, same, _⟩ := Registry.mem_checkPongMessage_of_mem packet member
    exact ⟨after, new, same⟩
  · intro after member
    obtain ⟨node, old, same, _, dead, _⟩ := Registry.mem_checkPongMessage member
    exact .inr ⟨node, old, same, fun was => dead.trans was⟩

theorem set (sent : MessagesFrom nodes pending) {index : Nat} {node after : NodeBase}
    (found : nodes[index]? = some node) (same : node.SameIdentity after)
    (grows : node.pushedDead = true → after.pushedDead = true) :
    MessagesFrom (nodes.set index after) pending := by
  obtain ⟨inside, here⟩ := List.getElem?_eq_some_iff.mp found
  have placed : after ∈ nodes.set index after := List.mem_set inside after
  apply sent.replaced
  · intro other member
    obtain ⟨place, bound, rfl⟩ := List.mem_iff_getElem.mp member
    by_cases equal : index = place
    · subst equal
      exact ⟨after, placed, here ▸ same⟩
    · refine ⟨nodes[place], ?_, .refl _⟩
      rw [← List.getElem_set_of_ne equal after (by simpa using bound)]
      exact List.getElem_mem _
  · intro other member
    rcases List.mem_or_eq_of_mem_set member with old | rfl
    · exact .inr ⟨other, old, .refl other, id⟩
    · exact .inr ⟨node, List.mem_of_getElem? found, same, grows⟩

theorem append (sent : MessagesFrom nodes pending) {posted : PostedMessage}
    (sender : ∃ node ∈ nodes, posted.SentBy node)
    (first : ∀ earlier ∈ pending, earlier.sender = posted.sender → earlier.message.isDead = false)
    (pushed : posted.message.isDead = true →
      ∀ node ∈ nodes, node.serial = posted.sender → node.pushedDead = true) :
    MessagesFrom nodes (pending ++ [posted]) := by
  refine ⟨?_, ?_, ?_⟩
  · intro other member
    rcases List.mem_append.mp member with old | new
    · exact sent.senders other old
    · simp only [List.mem_singleton] at new
      exact new ▸ sender
  · refine List.pairwise_append.mpr ⟨sent.deadLast, by simp, ?_⟩
    intro earlier member later new
    simp only [List.mem_singleton] at new
    exact new ▸ first earlier member
  · intro other member dead
    rcases List.mem_append.mp member with old | new
    · exact sent.deadPushed other old dead
    · simp only [List.mem_singleton] at new
      subst new
      exact pushed dead

theorem handleMessage {registry : Registry} (formed : registry.WellFormed)
    {posted : PostedMessage}
    (sent : MessagesFrom registry.vecNodeBase (posted :: pending)) :
    MessagesFrom (registry.handleMessage posted.message).1.vecNodeBase pending := by
  have tail := sent.sublist (List.sublist_cons_self posted pending)
  rw [Registry.handleMessage_registry]
  split
  next dead =>
    refine ⟨?_, tail.deadLast, ?_⟩
    · intro other member
      obtain ⟨node, old, sender, address⟩ := tail.senders other member
      refine ⟨node, ?_, sender, address⟩
      refine (mem_eraseFirst_iff formed.ports).mpr ⟨old, ?_⟩
      intro port
      obtain ⟨erased, present, origin, origin_⟩ := sent.senders posted (by simp)
      have same : node = erased := formed.eq_of_getPortInfo old present
        (port.trans (congrArg SockaddrIn.sinPort origin_.symm))
      have order := (List.pairwise_cons.mp sent.deadLast).1 other member
        (origin.symm.trans (same ▸ sender))
      simp [order] at dead
    · intro other member otherDead node inside
      exact tail.deadPushed other member otherDead node (eraseFirst_sublist.subset inside)
  next => exact tail

end MessagesFrom

end NodeManagement
