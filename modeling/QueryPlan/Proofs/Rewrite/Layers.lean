import QueryPlan.Proofs.Rewrite.Rest

/-! # Layers of a plan

A rule that looks below an operator sees of its inputs little more than what kind they are of and
how wide they are. What may take the place of an input without a rule above it noticing is a matter
of these faces, and the layers of a plan say which faces stand below which operators. -/
namespace QueryPlan.Plan

/-- What is seen of an operator from above. A projection that does something on top of an aggregate
is never taken away again, so it is told from other projections. -/
inductive Face where
  | scan | arrowScan | filter | project | regrouped | aggregate
  | join (leftWidth rightWidth : Nat) (condition : Expr) (kind : JoinKind)

namespace Face

/-- The rows of groups, possibly with projections on top. -/
def isGrouped : Face → Bool
  | aggregate | regrouped => true
  | _ => false

/-- The rows of tables and their joins. -/
inductive IsSource : Face → Prop
  | scan : IsSource scan
  | arrowScan : IsSource arrowScan
  | join (leftWidth rightWidth : Nat) (condition : Expr) (kind : JoinKind) :
      IsSource (join leftWidth rightWidth condition kind)

/-- The rows of tables and their joins, filtered or not. -/
def IsRows (f : Face) : Prop := f.IsSource ∨ f = filter

/-- What a face may turn into while the rules from the pruning of columns on are run. -/
inductive Turns : Face → Face → Prop
  | refl (f : Face) : Turns f f
  | dropped (g : Face) : Turns project g
  | read : Turns scan arrowScan

/-- What a face may turn into while any of the rules is run. -/
inductive TurnsEarly : Face → Face → Prop
  | late {f g : Face} : Turns f g → TurnsEarly f g
  | split : TurnsEarly aggregate regrouped
  | pushed (leftWidth rightWidth : Nat) (condition : Expr) (kind : JoinKind) :
      TurnsEarly filter (join leftWidth rightWidth condition kind)

variable {f g h : Face}

theorem Turns.trans (hfg : Turns f g) (hgh : Turns g h) : Turns f h := by
  cases hfg with
  | refl => exact hgh
  | dropped => exact .dropped h
  | read =>
    cases hgh
    exact .read

theorem TurnsEarly.trans (hfg : TurnsEarly f g) (hgh : Turns g h) : TurnsEarly f h := by
  cases hfg with
  | late hfg => exact .late (hfg.trans hgh)
  | split =>
    cases hgh
    exact .split
  | pushed lw rw on k =>
    cases hgh
    exact .pushed lw rw on k

theorem TurnsEarly.isGrouped (h : TurnsEarly f g) (hf : f.isGrouped) : g.isGrouped := by
  cases h with
  | late h =>
    cases h with
    | refl => exact hf
    | dropped => cases hf
    | read => cases hf
  | split => rfl
  | pushed => cases hf

theorem TurnsEarly.isSource (h : TurnsEarly f g) (hf : f.IsSource) : g.IsSource := by
  cases hf with
  | scan =>
    cases h with
    | late h =>
      cases h with
      | refl => exact .scan
      | read => exact .arrowScan
  | arrowScan =>
    cases h with
    | late h =>
      cases h
      exact .arrowScan
  | join lw rw on k =>
    cases h with
    | late h =>
      cases h
      exact .join lw rw on k

theorem TurnsEarly.isRows (h : TurnsEarly f g) (hf : f.IsRows) : g.IsRows := by
  rcases hf with hf|rfl
  · exact .inl (h.isSource hf)
  · cases h with
    | late h =>
      cases h
      exact .inr rfl
    | pushed lw rw on k => exact .inl (.join lw rw on k)

/-- Only a projection may turn into a projection or a filter. -/
theorem TurnsEarly.ne_project (h : TurnsEarly f g) (hf : f ≠ .project) : g ≠ .project := by
  rintro rfl
  cases h with
  | late h =>
    cases h with
    | refl => exact hf rfl
    | dropped => exact hf rfl

theorem TurnsEarly.ne_filter (h : TurnsEarly f g) (hf : f ≠ .project) (hf' : f ≠ .filter) :
    g ≠ .filter := by
  rintro rfl
  cases h with
  | late h =>
    cases h with
    | refl => exact hf' rfl
    | dropped => exact hf rfl

/-- Nothing but a filter or a projection turns into a join, and a join stays the one it is. -/
theorem TurnsEarly.eq_join {leftWidth rightWidth : Nat} {condition : Expr} {kind : JoinKind}
    (h : TurnsEarly f (.join leftWidth rightWidth condition kind)) (hf : f ≠ .project)
    (hf' : f ≠ .filter) : f = .join leftWidth rightWidth condition kind := by
  cases h with
  | late h =>
    cases h with
    | refl => rfl
    | dropped => exact absurd rfl hf
  | pushed => exact absurd rfl hf'

theorem Turns.eq_join {leftWidth rightWidth : Nat} {condition : Expr} {kind : JoinKind}
    (h : Turns f (.join leftWidth rightWidth condition kind)) (hf : f ≠ .project) :
    f = .join leftWidth rightWidth condition kind := by
  cases h with
  | refl => rfl
  | dropped => exact absurd rfl hf

theorem TurnsEarly.eq_scan (h : TurnsEarly f .scan) (hf : f ≠ .project) : f = .scan := by
  cases h with
  | late h =>
    cases h with
    | refl => rfl
    | dropped => exact absurd rfl hf

theorem IsSource.ne_project (h : f.IsSource) : f ≠ .project := by
  rintro rfl
  cases h

theorem IsSource.ne_filter (h : f.IsSource) : f ≠ .filter := by
  rintro rfl
  cases h

theorem IsRows.ne_project (h : f.IsRows) : f ≠ .project := by
  rintro rfl
  rcases h with h|h
  · exact h.ne_project rfl
  · cases h

end Face

/-- The face of the operator at the root. -/
def face : Plan → Face
  | scan _ => .scan
  | arrowScan _ _ => .arrowScan
  | filter _ _ => .filter
  | project input exprs _ =>
    if input.face.isGrouped && !Expr.isIdentity exprs input.width then .regrouped else .project
  | join left right condition kind => .join left.width right.width condition kind
  | aggregate _ _ _ => .aggregate

variable {p q input left right : Plan} {condition : Expr} {es : List Expr} {ns : List String}
  {kind : JoinKind} {groups : List Nat} {calls : List AggregateCall}

theorem face_project_eq_project (h : (project input es ns).face ≠ .regrouped) :
    (project input es ns).face = .project := by
  rw [face] at h ⊢
  split at h
  · exact absurd rfl h
  · rename_i hg
    rw [if_neg hg]

theorem face_project_eq_regrouped : (project input es ns).face = .regrouped ↔
    input.face.isGrouped ∧ ¬ Expr.isIdentity es input.width := by
  rw [face]
  split
  · rename_i hg
    simpa using hg
  · rename_i hg
    simpa using hg

theorem eq_scan_of_face (h : p.face = .scan) : ∃ t, p = scan t := by
  cases p with
  | scan t => exact ⟨t,rfl⟩
  | project input es ns =>
    rw [face] at h
    split at h <;> cases h
  | _ => cases h

theorem eq_join_of_face {leftWidth rightWidth : Nat}
    (h : p.face = .join leftWidth rightWidth condition kind) : ∃ left right,
      p = join left right condition kind ∧ left.width = leftWidth ∧ right.width = rightWidth := by
  cases p with
  | join left right c k =>
    cases h
    exact ⟨left,right,rfl,rfl,rfl⟩
  | project input es ns =>
    rw [face] at h
    split at h <;> cases h
  | _ => cases h

/-! ## Taking the place of an operator -/

/-- A plan as wide as another one whose face the face of that one may turn into. -/
structure Replaces (turns : Face → Face → Prop) (p q : Plan) : Prop where
  width : q.width = p.width
  face : turns p.face q.face

theorem Replaces.early (h : Replaces Face.Turns p q) : Replaces Face.TurnsEarly p q :=
  ⟨h.width,.late h.face⟩

theorem Replaces.refl (p : Plan) : Replaces Face.Turns p p := ⟨rfl,.refl p.face⟩

theorem Replaces.trans {r : Plan} (hpq : Replaces Face.Turns p q) (hqr : Replaces Face.Turns q r) :
    Replaces Face.Turns p r := ⟨hqr.width.trans hpq.width,hpq.face.trans hqr.face⟩

theorem Replaces.trans_late {r : Plan} (hpq : Replaces Face.TurnsEarly p q)
    (hqr : Replaces Face.Turns q r) : Replaces Face.TurnsEarly p r :=
  ⟨hqr.width.trans hpq.width,hpq.face.trans hqr.face⟩

/-- Over replaced inputs an operator is as wide as before and has the face that it had. -/
theorem Over.replaces (h : p.Over (Replaces Face.TurnsEarly) q) : Replaces Face.Turns p q := by
  cases h with
  | scan t => exact .refl _
  | arrowScan t cols => exact .refl _
  | filter c h => exact ⟨h.width,.refl _⟩
  | aggregate gs cs h => exact ⟨rfl,.refl _⟩
  | join c k h h' =>
    refine ⟨?_,?_⟩
    · rw [width,width,h.width,h'.width]
    · rw [face,face,h.width,h'.width]
      exact .refl _
  | @project p q es ns h =>
    refine ⟨rfl,?_⟩
    by_cases hp : (Plan.project p es ns).face = .regrouped
    · obtain ⟨hg,hid⟩ := face_project_eq_regrouped.1 hp
      have hq : (Plan.project q es ns).face = .regrouped :=
        face_project_eq_regrouped.2 ⟨h.face.isGrouped hg,by rwa [h.width]⟩
      rw [hp,hq]
      exact .refl _
    · rw [face_project_eq_project hp]
      exact .dropped _

/-! ## Layers -/

/-- No projection that may be taken away stands below a filter or a projection, and no filter below
a filter. -/
def Layered : Plan → Prop
  | filter input _ => input.face ≠ .project ∧ input.face ≠ .filter
  | project input _ _ => input.face ≠ .project
  | _ => True

/-- The inputs at the root, if it is a join, have faces of the given kind. -/
def JoinsOver (P : Face → Prop) : Plan → Prop
  | join left right _ _ => P left.face ∧ P right.face
  | _ => True

/-- The layers of a plan before any rule is run: besides, tables are joined before they are filtered. -/
def Unrewritten (p : Plan) : Prop := p.Layered ∧ p.JoinsOver Face.IsSource

theorem Layered.over (hp : p.Layered) (h : p.Over (Replaces Face.TurnsEarly) q) : q.Layered := by
  cases h with
  | filter c h => exact ⟨h.face.ne_project hp.1,h.face.ne_filter hp.1 hp.2⟩
  | project es ns h => exact h.face.ne_project hp
  | _ => trivial

theorem JoinsOver.over {P : Face → Prop} (hP : ∀ f g, Face.TurnsEarly f g → P f → P g)
    (hp : p.JoinsOver P) (h : p.Over (Replaces Face.TurnsEarly) q) : q.JoinsOver P := by
  cases h with
  | join c k h h' => exact ⟨hP _ _ h.face hp.1,hP _ _ h'.face hp.2⟩
  | _ => trivial

end QueryPlan.Plan
