/-!
# Running many jobs

A batch is a list of jobs of which each gives a result. When the batch was stopped before it began,
no job is run and there are no results; a batch without jobs is over at once and has nothing to
stop.
-/

namespace Phrasebook

namespace Batch

/-- Why a batch stops early. -/
inductive Stop where
  /-- It was cancelled. -/
  | cancelled
  /-- Its time was over. -/
  | deadline
  deriving DecidableEq, Repr

namespace Stop

/-- The reason in words. -/
def message : Stop → String
  | .cancelled => "context canceled"
  | .deadline => "context deadline exceeded"

end Stop

variable {α β : Type}

/-- The results of all jobs in order, unless the batch was stopped before. -/
def run (stopped : Option Stop) (job : α → β) (inputs : List α) : Except Stop (List β) :=
  match stopped, inputs with
  | some reason, _ :: _ => .error reason
  | _, inputs => .ok (inputs.map job)

end Batch

end Phrasebook
