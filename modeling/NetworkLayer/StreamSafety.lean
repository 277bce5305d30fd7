import NetworkLayer.Flows

/-!
# Safety of the byte streams

What a user's fifo has been given is at all times a prefix of what the other
user handed over, and no byte leaves a send window before it was written
there. This holds for every run: packets are lost, repeated and reordered,
user fifos fail or take a part, and either side may close or reset.
-/

namespace NetworkLayer.StreamSafety

open UtilTypes FifoUtils StepRuns Endpoints Flows

/-- The streams are safe in one state: what was delivered is a prefix of what
was enqueued, and the send window lacks delivered bytes only. -/
def StreamsSafe (world : World) : Prop :=
  ∀ side,(world side.other).delivered<+:(world side).enqueued ∧
    ∃ k ≤ (world side.other).delivered.length,
      (world side).socket.sendWindow.toList=(world side).enqueued.drop k

/-- Two aligned directions are safe streams. -/
theorem streamsSafe_of_bothDirections {base : Side → ℤ} {world : World}
    (h : BothDirections base world) : StreamsSafe world := by
  intro side
  obtain ⟨k,hk,hwindow,_⟩ := (h side).acked
  exact ⟨(h side).delivered,k,hk,hwindow⟩

/-- The streams are safe in every state of every run from an aligned start. -/
theorem streams_safe {world : World} (h : Aligned world) (actions : List Action) :
    EachState World.step StreamsSafe world actions :=
  eachState_imp (fun _ => streamsSafe_of_bothDirections) (run_bothDirections h actions)

/-- A run in which a byte is moved, sent, delivered and acknowledged. -/
theorem streams_safe_start : EachState World.step StreamsSafe startWorld
    [.statusMessages .left (smoothEnv 5000000 (some [120])),
      .sendWindow .left (smoothEnv 5000000 none),arrives .right 0 (smoothEnv 5000000 none),
      arrives .left 0 (smoothEnv 5000000 none)] :=
  streams_safe startWorld_aligned _

end NetworkLayer.StreamSafety
