import Krabka.Share.Model

namespace Krabka
namespace Share

open Consumer (Record RecordBatch RecordsPayload recordOffset)
open List

/-!
# The records that a share consumer returns

A member may use a record only while it holds the lock on its offset, that is,
when an acquired range of the row holds the offset.  The broker returns whole
batches.  `share_partition_records` looks a record up in the acquired ranges only
for its delivery count, and returns it in any case.
-/

def AcquiredRecords.Holds (range : AcquiredRecords) (offset : Int) : Prop :=
  range.firstOffset ≤ offset ∧ offset ≤ range.lastOffset
deriving Decidable

end Share
end Krabka
