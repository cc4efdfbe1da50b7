import NodeManagement.DeadDelivery
import NodeManagement.Pinging

/-!
What a REGISTER achieves for a client that comes back while its old entry is on the way out.
Between the verdict on a node and the erasure of its entry the port counts as registered, and
the registration is dropped.
-/

namespace NodeManagement

open KeyedList Transition

namespace Monitor

def lossless (monitor : Monitor) : MonitorEvent → Bool
  | .stop => false
  | .nodeStep index _ _ =>
      match monitor.registry.vecNodeBase[index]? with
      | some node => !(node.pc.pushes && monitor.messageNodeQueue.isFull)
      | none => true
  | _ => true

def NeverStopped (monitor : Monitor) : Prop :=
  monitor.phase.stopping = false ∧ monitor.messageNodeQueue.running = true

variable {monitor after : Monitor}

theorem step_neverStopped {event : MonitorEvent} (open_ : monitor.NeverStopped)
    (fits : monitor.lossless event = true) (taken : monitor.step event = some after) :
    after.NeverStopped := by
  obtain ⟨going, running⟩ := open_
  cases step_move taken with
  | nodeStep stepped =>
      obtain ⟨node, moved, pushed, _, _, rfl⟩ := nodeStep_cases stepped
      refine ⟨going, ?_⟩
      cases pushed with
      | none => exact running
      | some message => simpa using running
  | waitAndPop popped => exact ⟨going, (ConsumerThread.pop_running popped).trans running⟩
  | register | pong | checkRunning | handleMessage | startAgain => exact ⟨going, running⟩
  | start => exact ⟨rfl, running⟩
  | stopAgain | stop => simp [lossless] at fits
  | proceed proceeded =>
      obtain ⟨_, phase, _, _, moved⟩ := proceed_cases proceeded
      refine ⟨?_, Consumer.proceed_running going running moved⟩
      rw [phase]
      exact ModulePhase.next_calm going

end Monitor

end NodeManagement
