import Krabka.TopicPartition

namespace Krabka
namespace Consumer

/-!
# Positions

The leader-epoch state of a partition, `PartitionPosition` of `position.rs`.
The offset itself stands in the map `next_offsets` of the consumer.
-/

structure PartitionPosition where
  /-- The leader epoch of the last consumed record. -/
  offsetEpoch : Int
  leaderId : Int
  /-- The leader epoch of the latest metadata. -/
  leaderEpoch : Int
  awaitingValidation : Bool
deriving DecidableEq, Repr

def PartitionPosition.default : PartitionPosition := ⟨-1, -1, -1, false⟩

end Consumer
end Krabka
