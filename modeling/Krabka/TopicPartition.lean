import Mathlib.Data.Prod.Lex
import Mathlib.Data.String.Basic
import Mathlib.Order.Basic

namespace Krabka

/-!
Topic partitions, the keys of nearly every map of the clients.

The source uses the pair `(String, i32)` with its derived order: topics first,
in code-point order, then partition indices.
-/

structure TopicPartition where
  topic : String
  partition : Int
deriving DecidableEq, Repr

namespace TopicPartition

/-- The pair that decides the order. -/
def toPair (key : TopicPartition) : String ×ₗ Int := toLex (key.topic, key.partition)

theorem toPair_injective : Function.Injective toPair := by
  rintro ⟨leftTopic, leftPartition⟩ ⟨rightTopic, rightPartition⟩ same
  have parts := Prod.mk.inj (congrArg ofLex same)
  exact mk.injEq .. ▸ parts

instance linearOrder : LinearOrder TopicPartition :=
  LinearOrder.lift' toPair toPair_injective

end TopicPartition

end Krabka
