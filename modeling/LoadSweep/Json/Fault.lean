/-! What can be wrong with a text that should be JSON. -/
namespace LoadSweep.Json

/-- Where a text stops being JSON: it ends too early, or something else stands there. -/
inductive Fault where
  | cutShort
  | malformed
  deriving DecidableEq, Repr

end LoadSweep.Json
