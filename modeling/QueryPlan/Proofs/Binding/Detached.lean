import QueryPlan.Binding.Query
import QueryPlan.Proofs.Relation.Detached

/-! # Binding does not look at files

Over tables apart from where they are, a query is bound to the same plan or refused with the same
error. -/
namespace QueryPlan

namespace Binding
open Plan

/-- A bound plan apart from where its tables are. -/
def detachedIn (bound : Plan × Scope) : Plan × Scope := (bound.1.detached,bound.2)

variable (c : Catalog) (n : Names) (input : Plan)

theorem table_detached (t : Sql.TableFactor) :
    table c.detached t = (table c t).map detachedIn := by
  unfold table
  split
  · rw [c.lookup_detached]
    cases c.lookup _ with
    | none => rfl
    | some t =>
      dsimp only [Option.map_some]
      split
      · rfl
      · split <;> rfl
  all_goals rfl

theorem join_detached (bound : Plan × Scope) (j : Sql.Join) :
    join c.detached (detachedIn bound) j = (join c bound j).map detachedIn := by
  unfold join
  simp only [table_detached,bind_map,map_bind]
  rfl

theorem tableWithJoins_detached (t : Sql.TableWithJoins) :
    tableWithJoins c.detached t = (tableWithJoins c t).map detachedIn := by
  unfold tableWithJoins
  rw [table_detached,bind_map,map_bind]
  exact congrArg _ (funext fun bound => foldlM_map (join_detached c) t.joins bound)

theorem fromClause_detached (ts : List Sql.TableWithJoins) :
    fromClause c.detached ts = (fromClause c ts).map detachedIn := by
  cases ts with
  | nil => rfl
  | cons first rest =>
    simp only [fromClause,tableWithJoins_detached,bind_map,map_bind]
    refine congrArg _ (funext fun bound => foldlM_map (fun b t => ?_) rest bound)
    simp only [map_bind]
    rfl

theorem filtered_detached (selection : Option Sql.Expr) :
    filtered n input.detached selection = (filtered n input selection).map detached := by
  cases selection with
  | none => rfl
  | some e =>
    simp only [filtered,map_bind]
    refine congrArg _ (funext fun bound => ?_)
    split <;> rfl

theorem aggregation_detached (groupBy : List Sql.Expr) (ts : List Target) (names : List String)
    (having : Option Sql.Expr) : aggregation n input.detached groupBy ts names having =
      (aggregation n input groupBy ts names having).map fun r => (r.1.detached,r.2) := by
  simp only [aggregation,map_bind,projectDerived_detached]
  refine congrArg _ (funext fun keys => congrArg _ (funext fun gathered => ?_))
  obtain ⟨⟨es,condition⟩,g⟩ := gathered
  cases condition <;> rfl

theorem distinct_detached (d : Option Sql.Distinct) :
    distinct input.detached d = (distinct input d).map detached := by
  unfold distinct
  split
  · rfl
  · rw [width_detached]
    rfl
  · rfl

theorem select_detached (s : Sql.Select) :
    select c.detached s = (select c s).map detached := by
  unfold select
  by_cases htop : s.top.isSome
  · simp only [if_pos htop]
    rfl
  by_cases hinto : s.into.isSome
  · simp only [if_neg htop,if_pos hinto]
    rfl
  simp only [if_neg htop,if_neg hinto,fromClause_detached,bind_map,map_bind]
  refine congrArg _ (funext fun bound => ?_)
  have hcase : c.detached.caseSensitive = c.caseSensitive := rfl
  simp only [detachedIn,hcase,filtered_detached,bind_map]
  refine congrArg _ (funext fun input => congrArg _ (funext fun groupBy => ?_))
  refine congrArg _ (funext fun ts => ?_)
  split
  · rw [aggregation_detached,bind_map,map_bind]
    exact congrArg _ (funext fun r => distinct_detached (.project r.1 r.2 (targetNames ts)) s.distinct)
  · rw [map_bind]
    exact congrArg _ (funext fun es => distinct_detached (.project input es (targetNames ts)) s.distinct)

mutual
theorem query_detached : (q : Sql.Query) → query c.detached q = (query c q).map detached
  | .mk clauses b => by
    rw [query,query,map_bind]
    exact congrArg _ (funext fun _ => body_detached b)
theorem body_detached : (b : Sql.Body) → body c.detached b = (body c b).map detached
  | .select s => select_detached c s
  | .query q => query_detached q
  | .setOperation _ => rfl
  | .other _ => rfl
end

end Binding

/-- The plan that a text is bound to names the files of its tables, and depends on them no further. -/
theorem Catalog.bindText_detached (c : Catalog) (text : String) :
    c.detached.bindText text = (c.bindText text).map Plan.detached := by
  simp only [bindText,map_bind]
  exact congrArg _ (funext fun q => Binding.query_detached c q)

end QueryPlan
