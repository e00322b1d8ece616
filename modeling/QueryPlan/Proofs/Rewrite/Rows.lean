import QueryPlan.Proofs.Meaning.Join
import QueryPlan.Proofs.Rewrite.Shape

/-! # Rules that keep the rows of a plan -/
namespace QueryPlan.Plan

variable {α : Type} [DecidableEq α] {I : Interpretation α} {db : Database α}

/-- A plan that is well placed becomes another one with the same rows. -/
def KeepsRows (I : Interpretation α) (db : Database α) (p q : Plan) : Prop :=
  KeepsShape p q ∧ (p.WellPlaced → q.rows I db = p.rows I db)

theorem keepsRows_compatible : Compatible (KeepsRows I db) where
  refl p := ⟨keepsShape_compatible.refl p,fun _ => rfl⟩
  trans p q r := by
    rintro ⟨hpq,hr⟩ ⟨hqr,hr'⟩
    exact ⟨keepsShape_compatible.trans p q r hpq hqr,fun h => (hr' (hpq h).1).trans (hr h)⟩
  filter p q c := by
    rintro ⟨hpq,hr⟩
    refine ⟨keepsShape_compatible.filter p q c hpq,fun h => ?_⟩
    simp only [rows,hr (wellPlaced_filter.1 h).2]
  project p q es ns := by
    rintro ⟨hpq,hr⟩
    refine ⟨keepsShape_compatible.project p q es ns hpq,fun h => ?_⟩
    simp only [rows,hr (wellPlaced_project.1 h).2.2]
  join p q p' q' c k := by
    rintro ⟨hpq,hr⟩ ⟨hpq',hr'⟩
    refine ⟨keepsShape_compatible.join p q p' q' c k hpq hpq',fun h => ?_⟩
    obtain ⟨-,hp,hp'⟩ := wellPlaced_join.1 h
    simp only [rows,hr hp,hr' hp',hpq.width_eq hp,hpq'.width_eq hp']
  aggregate p q gs cs := by
    rintro ⟨hpq,hr⟩
    refine ⟨keepsShape_compatible.aggregate p q gs cs hpq,fun h => ?_⟩
    simp only [rows,hr (wellPlaced_aggregate.1 h).2]

end QueryPlan.Plan
