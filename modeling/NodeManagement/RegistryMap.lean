import NodeManagement.NodeManagament

/-!
The registry as a finite map.  `AddressMap` states what the registry is for, with the notion of
client identity as a parameter; the handlers implement it for the port, not for the address.
-/

namespace NodeManagement

open KeyedList

inductive HandlerCall
  | register (packet : RigisterPacket)
  | pong (packet : Packet)
  | message (message : StrMessageState)

def Registry.handle (registry : Registry) : HandlerCall → Registry
  | .register packet => registry.checkRegisterMessage packet
  | .pong packet => registry.checkPongMessage packet
  | .message message => (registry.handleMessage message).1

structure AddressMap (Key : Type) where
  entries : Key → Option NodeBase
  made : Nat

def AddressMap.empty (Key : Type) : AddressMap Key := ⟨fun _ => none, 0⟩

/-- What a handler call means for clients identified by `keyOf`: a REGISTER of a monitored
type adds a node iff the client has none, a PONG sets the flag of the client's node, a DEAD
notification removes the client's node, and no other client is touched. -/
def AddressMap.handle {Key : Type} [DecidableEq Key] (keyOf : SockaddrIn → Key)
    (registered : AddressMap Key) : HandlerCall → AddressMap Key
  | .register packet =>
      if packet.typeNode.isMonitored && (registered.entries (keyOf packet.clientAddr)).isNone then
        { entries := Function.update registered.entries (keyOf packet.clientAddr)
            (some (packet.newNode (registered.made + 1)))
          made := registered.made + 1 }
      else registered
  | .pong packet =>
      { registered with
        entries := Function.update registered.entries (keyOf packet.clientAddr)
          ((registered.entries (keyOf packet.clientAddr)).map fun node => node.setPongState true) }
  | .message message =>
      if message.isDead then
        { registered with
          entries := Function.update registered.entries (keyOf message.clientAddr) none }
      else registered

def Registry.toAddressMap {Key : Type} [DecidableEq Key] (keyOf : SockaddrIn → Key)
    (registry : Registry) : AddressMap Key where
  entries := toMap (fun node => keyOf node.clientAddr) registry.vecNodeBase
  made := registry.made

def Registry.PortsDistinct (registry : Registry) : Prop :=
  (registry.vecNodeBase.map NodeBase.getPortInfo).Nodup

instance (registry : Registry) : Decidable registry.PortsDistinct :=
  inferInstanceAs (Decidable (List.Nodup _))

theorem Registry.isNone_entries (registry : Registry) (port : BitVec 16) :
    ((registry.toAddressMap SockaddrIn.sinPort).entries port).isNone =
      !hasKey NodeBase.getPortInfo port registry.vecNodeBase := by
  change (toMap NodeBase.getPortInfo registry.vecNodeBase port).isNone = _
  cases found : hasKey NodeBase.getPortInfo port registry.vecNodeBase with
  | false =>
      have absent := toMap_eq_none_iff.mpr (hasKey_eq_false_iff.mp found)
      simp [absent]
  | true =>
      obtain ⟨node, member, matched⟩ := hasKey_iff.mp found
      cases present : toMap NodeBase.getPortInfo registry.vecNodeBase port with
      | none => exact absurd matched (toMap_eq_none_iff.mp present node member)
      | some node => rfl

theorem Registry.handle_portsDistinct {registry : Registry} (distinct : registry.PortsDistinct)
    (call : HandlerCall) : (registry.handle call).PortsDistinct := by
  unfold PortsDistinct at distinct ⊢
  cases call with
  | register packet =>
      simp only [handle, checkRegisterMessage_eq]
      split
      · rename_i added
        simp only [Bool.and_eq_true, Bool.not_eq_true', hasKey_eq_false_iff] at added
        simp only [List.map_append, List.map_cons, List.map_nil,
          RigisterPacket.newNode_getPortInfo]
        refine List.nodup_append.mpr ⟨distinct, by simp, ?_⟩
        intro port member other new same
        obtain ⟨node, inside, equal⟩ := List.mem_map.mp member
        simp only [List.mem_singleton] at new
        exact added.2 node inside (equal.trans (same.trans new))
      · exact distinct
  | pong packet =>
      simp only [handle, checkPongMessage_eq]
      have kept (node : NodeBase) :
          (node.setPongState true).getPortInfo = node.getPortInfo := rfl
      rwa [map_updateFirst _ kept]
  | message message =>
      simp only [handle, handleMessage_registry]
      split
      · exact distinct.sublist (eraseFirst_sublist.map _)
      · exact distinct

theorem Registry.handle_toAddressMap {registry : Registry} (distinct : registry.PortsDistinct)
    (call : HandlerCall) :
    (registry.handle call).toAddressMap SockaddrIn.sinPort =
      (registry.toAddressMap SockaddrIn.sinPort).handle SockaddrIn.sinPort call := by
  cases call with
  | register packet =>
      simp only [handle, checkRegisterMessage_eq, AddressMap.handle, isNone_entries]
      split
      · rename_i added
        simp only [Bool.and_eq_true, Bool.not_eq_true', hasKey_eq_false_iff] at added
        unfold toAddressMap
        congr 1
        exact toMap_append NodeBase.getPortInfo added.2
      · rfl
  | pong packet =>
      simp only [handle, checkPongMessage_eq, AddressMap.handle, toAddressMap]
      congr 1
      exact toMap_updateFirst NodeBase.getPortInfo (fun _ => rfl)
  | message message =>
      simp only [handle, handleMessage_registry, AddressMap.handle, toAddressMap]
      split
      · congr 1
        exact toMap_eraseFirst distinct
      · rfl

/-- After any calls, from any addresses, the vector is the map keyed by port. -/
theorem registry_refines_portMap (calls : List HandlerCall) :
    (calls.foldl Registry.handle .empty).toAddressMap SockaddrIn.sinPort =
        calls.foldl (AddressMap.handle SockaddrIn.sinPort) (.empty (BitVec 16)) ∧
      (calls.foldl Registry.handle .empty).PortsDistinct := by
  have steps : ∀ (registry : Registry) (registered : AddressMap (BitVec 16)),
      registry.toAddressMap SockaddrIn.sinPort = registered → registry.PortsDistinct →
      (calls.foldl Registry.handle registry).toAddressMap SockaddrIn.sinPort =
          calls.foldl (AddressMap.handle SockaddrIn.sinPort) registered ∧
        (calls.foldl Registry.handle registry).PortsDistinct := by
    induction calls with
    | nil => exact fun registry registered same distinct => ⟨same, distinct⟩
    | cons call rest ih =>
        intro registry registered same distinct
        exact ih _ _ (same ▸ registry.handle_toAddressMap distinct call)
          (registry.handle_portsDistinct distinct call)
  exact steps .empty _ rfl List.nodup_nil

def registerFromHost (host : BitVec 32) : RigisterPacket :=
  { RigisterPacket.create with
    typeNode := .dataPlane
    clientAddr := ⟨host, 0x204e⟩ }

/-- The map keyed by the full address is not what the handlers implement: of two hosts that
register from one port only the first is monitored. -/
theorem registry_not_addressMap :
    ((([.register (registerFromHost 1), .register (registerFromHost 2)] :
        List HandlerCall).foldl Registry.handle .empty).toAddressMap id).entries ⟨2, 0x204e⟩ ≠
      (([.register (registerFromHost 1), .register (registerFromHost 2)] :
        List HandlerCall).foldl (AddressMap.handle id) (.empty SockaddrIn)).entries
          ⟨2, 0x204e⟩ := by
  decide

end NodeManagement
