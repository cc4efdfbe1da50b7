import Mathlib.Data.Prod.Lex
import NodeManagement.FailureDetector
import NodeManagement.Joins

/-!
The completeness of the monitoring: in a fair run that loses no DEAD message, the entry of a client
that stays silent is removed.  The way there is the node's own thread, then the position of its
DEAD message in the queue.
-/

namespace NodeManagement

open Transition

def PingSite.silentSteps : PingSite → Nat
  | retry retryTime => 4 * (retryNum - retryTime)
  | _ => 4 * retryNum + 6

namespace NodeBase

def silentSteps (node : NodeBase) : Nat :=
  match node.pc with
  | .notifyDead => 1
  | .retriesOver _ => 3
  | .loopHead =>
      match node.currentState with
      | .dead => 2
      | .timeout => 4 * retryNum + 5
      | _ => 4 * retryNum + 10
  | .notifyTimeout => 4 * retryNum + 4
  | .waitPong site => if node.pongState then 4 * retryNum + 12 else site.silentSteps
  | .pushPing site _ => if node.pongState then 4 * retryNum + 13 else site.silentSteps + 1
  | .sendPing site => if node.pongState then 4 * retryNum + 14 else site.silentSteps + 2
  | .resetPong site => site.silentSteps + 3
  | .sleepPing _ => 4 * retryNum + 11
  | _ => 0

variable {node after : NodeBase}

end NodeBase

namespace Monitor

variable {monitor after : Monitor}

def DeadBehind (monitor : Monitor) (id : Nat) (count : Nat) : Prop :=
  ∃ front posted back, monitor.pending = front ++ posted :: back ∧ front.length = count ∧
    posted.message.isDead = true ∧ posted.sender = id

theorem DeadPending.behind {node : NodeBase} (waits : monitor.DeadPending node) :
    ∃ count, monitor.DeadBehind node.serial count := by
  obtain ⟨posted, member, dead, sender, _⟩ := waits
  obtain ⟨front, back, split⟩ := List.append_of_mem member
  exact ⟨front.length, front, posted, back, split, rfl, dead, sender.symm⟩

end Monitor

namespace System

def deliversDead (system : System) (event : SystemEvent) : Bool :=
  (system.inner event).all system.monitor.deliversDead

variable {system after : System}

theorem step_noneLost {event : SystemEvent} (sound : system.Sound)
    (safe : system.monitor.NoneLost) (delivers : system.deliversDead event = true)
    (taken : system.step event = some after) : after.monitor.NoneLost := by
  cases named : system.inner event with
  | none => exact step_apart taken named ▸ safe
  | some call =>
      simp only [deliversDead, named, Option.all_some] at delivers
      exact Monitor.step_noneLost sound.monitor safe delivers (step_call taken named)

/-- From here on NodeManagament runs, no DEAD message is lost, and no PONG is handled for the
entry of `node` while it is there. -/
structure Silent (run : Execution step initial) (node : NodeBase) (start : Nat) : Prop where
  operates : (run.state start).Operates .handleSendData
  noneLost : (run.state start).monitor.NoneLost
  noStop : ∀ position, start ≤ position → run.event position ≠ .stopNodeManagament
  delivers : ∀ position, start ≤ position →
    (run.state position).deliversDead (run.event position) = true
  unanswered : ∀ position, start ≤ position →
    (∃ entry ∈ (run.state position).monitor.registry.vecNodeBase,
      entry.serial = node.serial) →
    (run.state position).handlesPong node.getPortInfo (run.event position) = false

section

variable {run : Execution step initial} {node : NodeBase} {start : Nat}

theorem Silent.stays (silent : Silent run node start) :
    ∀ position, start ≤ position →
      (run.state position).Operates .handleSendData ∧ (run.state position).monitor.NoneLost :=
  Execution.always_from ⟨silent.operates, silent.noneLost⟩ fun position later holds =>
    ⟨step_operates holds.1 (silent.noStop position later) (run.next position),
      step_noneLost (reachable_steady (run.reaches position)).sound holds.2
        (silent.delivers position later) (run.next position)⟩

end

end System

end NodeManagement
