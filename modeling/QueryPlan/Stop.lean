/-! # Work that is stopped -/
namespace QueryPlan

/-- Why work comes to nothing: it fails with an error, or it panics, which stops its callers too. -/
inductive Stop (ε : Type) where
  | failed (e : ε)
  | panicked
deriving DecidableEq,Repr

def Stop.map {ε δ : Type} (f : ε → δ) : Stop ε → Stop δ
  | failed e => failed (f e)
  | panicked => panicked

/-- The result of work, if it returns one. -/
def Stop.returned? {ε α : Type} : Except (Stop ε) α → Option (Except ε α)
  | .ok a => some (.ok a)
  | .error (failed e) => some (.error e)
  | .error panicked => none

end QueryPlan
