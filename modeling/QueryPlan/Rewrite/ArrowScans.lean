import QueryPlan.Rewrite.Rule

/-! # Table scans as Arrow scans of the columns in use -/
namespace QueryPlan.ArrowScans

/-- At least one column of a table with columns is read, for the number of its rows. -/
def orFirst (cols : List Nat) (t : Table) : List Nat :=
  if cols.isEmpty && decide (0 < t.width) then [0] else cols

def renumberOnto (cols : List Nat) (e : Expr) : Expr := e.renumber (Expr.positionIn cols)

/-- A projection, or its input alone where the projection does nothing. -/
def projectUnlessIdentity (input : Plan) (exprs : List Expr) (names : List String) : Plan :=
  if Expr.isIdentity exprs input.width then input else .project input exprs names

/-- A projection of a whole table reads the columns it refers to, in that order. -/
def projectScan : Plan → Except QueryError (Option Plan)
  | .project (.scan t) exprs names =>
    let cols := orFirst (Expr.addColumnsOf [] exprs) t
    .ok (some (projectUnlessIdentity (.arrowScan t cols) (exprs.map (renumberOnto cols)) names))
  | _ => .ok none

/-- A scan that is left reads every column. -/
def wholeScan : Plan → Except QueryError (Option Plan)
  | .scan t => .ok (some (.arrowScan t (List.range t.width)))
  | _ => .ok none

/-- A projection of a filtered whole table reads, in column order, what the two refer to. The
engine tests operator calls only, so any other condition is refused. -/
def filterScan : Plan → Except QueryError (Option Plan)
  | .project (.filter (.arrowScan t whole) condition) exprs names =>
    if whole ≠ List.range t.width then .ok none
    else match condition with
      | .call _ _ _ =>
        let cols := orFirst
          ((Expr.addColumns (Expr.addColumnsOf [] exprs) condition).mergeSort (· ≤ ·)) t
        if cols.length = t.width then .ok none
        else .ok (some (projectUnlessIdentity
          (.filter (.arrowScan t cols) (renumberOnto cols condition))
          (exprs.map (renumberOnto cols)) names))
      | _ => .error (.unsupported .bareFilterCondition)
  | _ => .ok none

private theorem projectScan_rank (p r : Plan) (h : projectScan p = .ok (some r)) :
    ∀ q ∈ r.inputs, q.rank < p.rank := by
  unfold projectScan at h
  split at h
  · simp only [Except.ok.injEq,Option.some.injEq,projectUnlessIdentity] at h
    subst h
    split <;> simp [Plan.inputs,Plan.rank,Plan.height,Plan.isRipe]
  · cases h

private theorem wholeScan_rank (p r : Plan) (h : wholeScan p = .ok (some r)) :
    ∀ q ∈ r.inputs, q.rank < p.rank := by
  unfold wholeScan at h
  split at h
  · simp only [Except.ok.injEq,Option.some.injEq] at h
    subst h
    simp [Plan.inputs]
  · cases h

private theorem filterScan_rank (p r : Plan) (h : filterScan p = .ok (some r)) :
    ∀ q ∈ r.inputs, q.rank < p.rank := by
  unfold filterScan at h
  split at h
  · split at h
    · cases h
    · split at h
      · dsimp only at h
        split at h
        · cases h
        · simp only [Except.ok.injEq,Option.some.injEq,projectUnlessIdentity] at h
          subst h
          split <;> simp [Plan.inputs,Plan.rank,Plan.height,Plan.isRipe]
      · cases h
  · cases h

def projectScanRule : RewriteRule where
  name := "ArrowTableScanProjection"
  apply := projectScan
  rank_apply := projectScan_rank

def wholeScanRule : RewriteRule where
  name := "ArrowTableScan"
  apply := wholeScan
  rank_apply := wholeScan_rank

def filterScanRule : RewriteRule where
  name := "ArrowTableScanFilterProject"
  apply := filterScan
  rank_apply := filterScan_rank

end QueryPlan.ArrowScans
