import QueryPlan.Proofs.Relation.WellFormed
import QueryPlan.Proofs.Rewrite.Runs

/-! # What rules keep of a plan

Every rule keeps columns in place and tables in order: a plan well placed stays so, with the same
types of its columns and the same tables from left to right. Calls stay typed, and conditions
boolean; some rules keep the names of the columns, too. -/
namespace QueryPlan.Plan

/-- A plan that is well placed becomes another one with columns of the same types over the same
tables. -/
def KeepsShape (p q : Plan) : Prop :=
  p.WellPlaced → q.WellPlaced ∧ q.types = p.types ∧ q.scans = p.scans

theorem KeepsShape.width_eq {p q : Plan} (h : KeepsShape p q) (hp : p.WellPlaced) :
    q.width = p.width := by
  obtain ⟨hq,ht,-⟩ := h hp
  rw [← hq.length_types,ht,hp.length_types]

theorem keepsShape_compatible : Compatible KeepsShape where
  refl p h := ⟨h,rfl,rfl⟩
  trans p q r hpq hqr h := by
    obtain ⟨hq,htq,hsq⟩ := hpq h
    obtain ⟨hr,htr,hsr⟩ := hqr hq
    exact ⟨hr,htr.trans htq,hsr.trans hsq⟩
  filter p q c hpq h := by
    obtain ⟨hc,hp⟩ := wellPlaced_filter.1 h
    obtain ⟨hq,ht,hs⟩ := hpq hp
    exact ⟨wellPlaced_filter.2 ⟨by rwa [ht],hq⟩,ht,hs⟩
  project p q es ns hpq h := by
    obtain ⟨he,hn,hp⟩ := wellPlaced_project.1 h
    obtain ⟨hq,ht,hs⟩ := hpq hp
    exact ⟨wellPlaced_project.2 ⟨by rwa [ht],hn,hq⟩,rfl,hs⟩
  join p q p' q' c k hpq hpq' h := by
    obtain ⟨hc,hp,hp'⟩ := wellPlaced_join.1 h
    obtain ⟨hq,ht,hs⟩ := hpq hp
    obtain ⟨hq',ht',hs'⟩ := hpq' hp'
    refine ⟨wellPlaced_join.2 ⟨by rwa [ht,ht'],hq,hq'⟩,?_,?_⟩
    · simp only [types,ht,ht']
    · simp only [scans,hs,hs']
  aggregate p q gs cs hpq h := by
    obtain ⟨⟨hg,hc⟩,hp⟩ := wellPlaced_aggregate.1 h
    obtain ⟨hq,ht,hs⟩ := hpq hp
    refine ⟨wellPlaced_aggregate.2 ⟨⟨?_,by rwa [ht]⟩,hq⟩,?_,hs⟩
    · rwa [hpq.width_eq hp]
    · simp only [types,ht]

/-- The calls at the root are typed, and its condition is BOOLEAN or NULL where conditions count. -/
def Sound (conditions : Prop) (p : Plan) : Prop := p.CallsTyped ∧ (conditions → p.ConditionFits)

/-- A plan all of whose operators are sound becomes another one. -/
def KeepsSound (conditions : Prop) (p q : Plan) : Prop :=
  p.Everywhere (Sound conditions) → q.Everywhere (Sound conditions)

theorem everywhere_sound_iff {conditions : Prop} {p : Plan} : p.Everywhere (Sound conditions) ↔
    p.Everywhere CallsTyped ∧ (conditions → p.Everywhere ConditionFits) :=
  ⟨fun h => ⟨fun n hn => (h n hn).1,fun hc n hn => (h n hn).2 hc⟩,
    fun h n hn => ⟨h.1 n hn,fun hc => h.2 hc n hn⟩⟩

section
variable {conditions : Prop} {t : Table} {cols groups : List Nat} {input left right : Plan}
  {condition : Expr} {es : List Expr} {ns : List String} {kind : JoinKind} {calls : List AggregateCall}

@[simp] theorem sound_scan : (scan t).Sound conditions := by
  simp [Sound,CallsTyped,ConditionFits,exprs]

@[simp] theorem sound_arrowScan : (arrowScan t cols).Sound conditions := by
  simp [Sound,CallsTyped,ConditionFits,exprs]

@[simp] theorem sound_filter : (filter input condition).Sound conditions ↔
    condition.Typed ∧ (conditions → condition.type.isBooleanLike) := by
  simp [Sound,CallsTyped,ConditionFits,exprs]

@[simp] theorem sound_project : (project input es ns).Sound conditions ↔ ∀ e ∈ es, e.Typed := by
  simp [Sound,CallsTyped,ConditionFits,exprs]

@[simp] theorem sound_join : (join left right condition kind).Sound conditions ↔
    condition.Typed ∧ (conditions → condition.type.isBooleanLike) := by
  simp [Sound,CallsTyped,ConditionFits,exprs]

@[simp] theorem sound_aggregate : (aggregate input groups calls).Sound conditions := by
  simp [Sound,CallsTyped,ConditionFits,exprs]

end

theorem keepsSound_compatible {conditions : Prop} : Compatible (KeepsSound conditions) where
  refl _ h := h
  trans _ _ _ hpq hqr h := hqr (hpq h)
  filter p q c hpq h := by
    obtain ⟨hc,hp⟩ := everywhere_filter.1 h
    exact everywhere_filter.2 ⟨sound_filter.2 (sound_filter.1 hc),hpq hp⟩
  project p q es ns hpq h := by
    obtain ⟨he,hp⟩ := everywhere_project.1 h
    exact everywhere_project.2 ⟨sound_project.2 (sound_project.1 he),hpq hp⟩
  join p q p' q' c k hpq hpq' h := by
    obtain ⟨hc,hp,hp'⟩ := everywhere_join.1 h
    exact everywhere_join.2 ⟨sound_join.2 (sound_join.1 hc),hpq hp,hpq' hp'⟩
  aggregate p q gs cs hpq h :=
    everywhere_aggregate.2 ⟨sound_aggregate,hpq (everywhere_aggregate.1 h).2⟩

/-- A plan that is well placed becomes another one with columns of the same names and types. -/
def KeepsFields (p q : Plan) : Prop := KeepsShape p q ∧ (p.WellPlaced → q.fields = p.fields)

theorem keepsFields_compatible : Compatible KeepsFields where
  refl p := ⟨keepsShape_compatible.refl p,fun _ => rfl⟩
  trans p q r := by
    rintro ⟨hpq,hf⟩ ⟨hqr,hf'⟩
    exact ⟨keepsShape_compatible.trans p q r hpq hqr,fun h => (hf' (hpq h).1).trans (hf h)⟩
  filter p q c := by
    rintro ⟨hpq,hf⟩
    exact ⟨keepsShape_compatible.filter p q c hpq,fun h => hf (wellPlaced_filter.1 h).2⟩
  project p q es ns := by
    rintro ⟨hpq,-⟩
    exact ⟨keepsShape_compatible.project p q es ns hpq,fun _ => rfl⟩
  join p q p' q' c k := by
    rintro ⟨hpq,hf⟩ ⟨hpq',hf'⟩
    refine ⟨keepsShape_compatible.join p q p' q' c k hpq hpq',fun h => ?_⟩
    obtain ⟨-,hp,hp'⟩ := wellPlaced_join.1 h
    simp only [fields,hf hp,hf' hp']
  aggregate p q gs cs := by
    rintro ⟨hpq,hf⟩
    refine ⟨keepsShape_compatible.aggregate p q gs cs hpq,fun h => ?_⟩
    simp only [fields,hf (wellPlaced_aggregate.1 h).2]

end QueryPlan.Plan
