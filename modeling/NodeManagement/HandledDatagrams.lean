import NodeManagement.MeaninglessDatagrams

/-!
The datagrams that mean anything to the program, from the receiver to the handlers: as many as are
handled have been received.
-/

namespace NodeManagement

def DataReceivedUDP.meaning (dataPDU : DataReceivedUDP) : Option PacketObject :=
  match decodeReceived dataPDU with
  | some (.rigister packet) => if packet.typeNode.isMonitored then some (.rigister packet) else none
  | decoded => decoded

/-- Not the REGISTER of a type that is not monitored. -/
def PacketObject.isMeant : PacketObject → Bool
  | .rigister request => request.typeNode.isMonitored
  | _ => true

theorem DataReceivedUDP.meaning_eq (dataPDU : DataReceivedUDP) :
    dataPDU.meaning = (decodeReceived dataPDU).filter PacketObject.isMeant := by
  unfold meaning
  cases decodeReceived dataPDU with
  | none => rfl
  | some object =>
      cases object with
      | rigister packet =>
          cases monitored : packet.typeNode.isMonitored <;>
            simp [monitored, Option.filter_some, PacketObject.isMeant]
      | _ => simp [Option.filter_some, PacketObject.isMeant]

def SystemEvent.brings : SystemEvent → Option PacketObject
  | .receive result => (dataToPush result).bind DataReceivedUDP.meaning
  | _ => none

namespace System

def meanings (system : System) : List PacketObject :=
  system.reception.filterMap fun received => received.dataUDP.meaning

variable {system after : System}

theorem step_meanings {event : SystemEvent} (taken : system.step event = some after) :
    after.meanings = system.meanings ++ event.brings.toList := by
  unfold meanings
  cases step_move taken with
  | receive pushed =>
      rename_i dataUDP
      simp only [List.filterMap_append, SystemEvent.brings, pushed, Option.bind_some,
        List.filterMap_cons, List.filterMap_nil]
      cases dataUDP.meaning <;> rfl
  | receiveNothing nothing => simp [SystemEvent.brings, nothing]
  | _ => simp [SystemEvent.brings]

/-- The handled packets of a kind are at most those that have been received. -/
theorem handled_countP_le (reached : Reachable system) {kind : PacketObject → Bool}
    (meant : ∀ object, kind object = true → object.isMeant = true) :
    (system.handled.countP fun packet => kind packet.object) ≤ system.meanings.countP kind := by
  calc system.handled.countP (fun packet => kind packet.object)
      = (system.handled.map HeapPacket.content).countP fun content => kind content.2 := by
        rw [List.countP_map]
        rfl
    _ ≤ system.ledger.expected.countP fun content => kind content.2 := by
        refine List.Sublist.countP_le (List.Sublist.trans ?_ (reachable_pipeline_sublist reached).1)
        simp [Ledger.pipeline, ledger]
    _ = system.meanings.countP kind := by
        rw [Ledger.expected, meanings, List.countP_filterMap, List.countP_filterMap]
        refine List.countP_congr fun received _ => ?_
        simp only [Reception.decoded, DataReceivedUDP.meaning_eq]
        cases decodeReceived received.dataUDP with
        | none => rfl
        | some object =>
            cases known : object.isMeant with
            | true => simp [Option.filter_some, known]
            | false =>
                have other : kind object = false := by
                  cases wanted : kind object with
                  | false => rfl
                  | true => rw [meant object wanted] at known; simp at known
                simp [Option.filter_some, known, other]

end System

end NodeManagement
