import TextScore.Gas

/-! What a user can set for all scores. -/
namespace TextScore

structure Settings where
  gas : Nat := Gas.standard
  deriving DecidableEq, Repr

end TextScore
