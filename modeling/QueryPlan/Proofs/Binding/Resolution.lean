import Mathlib.Data.List.Nodup
import QueryPlan.Proofs.Binding.Inversion

/-! # What names mean

Where tables lie side by side and go by different names, names and wildcards mean columns by their
positions among the columns of all tables. -/
namespace QueryPlan

/-! ## Tests that one element passes -/

section
variable {α : Type} {P : α → Bool} {xs : List α} {a : α} {i k : Nat}

/-- The only element that passes a test, with its position. -/
def OnlyAt (P : α → Bool) (xs : List α) (i : Nat) (a : α) : Prop :=
  xs[i]? = some a ∧ P a ∧ ∀ j b, xs[j]? = some b → P b → j = i

theorem filter_eq_singleton (h : xs.Nodup) :
    xs.filter P = [a] ↔ a ∈ xs ∧ P a ∧ ∀ b ∈ xs, P b → b = a := by
  rw [← List.perm_singleton,List.perm_ext_iff_of_nodup (h.filter P) (List.nodup_singleton a)]
  simp only [List.mem_filter,List.mem_singleton]
  constructor
  · intro heq
    obtain ⟨ha,hP⟩ := (heq a).2 rfl
    exact ⟨ha,hP,fun b hb hPb => (heq b).1 ⟨hb,hPb⟩⟩
  · rintro ⟨ha,hP,hall⟩ b
    exact ⟨fun ⟨hb,hPb⟩ => hall b hb hPb,fun hb => hb ▸ ⟨ha,hP⟩⟩

theorem nodup_zipIdx (xs : List α) (k : Nat) : (xs.zipIdx k).Nodup :=
  .of_map Prod.snd (by rw [List.zipIdx_map_snd]; exact List.nodup_range')

theorem filter_zipIdx_eq_singleton : (xs.zipIdx k).filter (fun p => P p.1) = [(a,i)] ↔
    ∃ j, i = k+j ∧ OnlyAt P xs j a := by
  rw [filter_eq_singleton (nodup_zipIdx xs k)]
  simp only [Prod.forall,List.mem_zipIdx_iff_le_and_getElem?_sub,Prod.mk.injEq]
  constructor
  · rintro ⟨⟨hle,ha⟩,hP,hall⟩
    refine ⟨i-k,by omega,ha,hP,fun j b hb hPb => ?_⟩
    have := (hall b (k+j) ⟨by omega,by rwa [Nat.add_sub_cancel_left]⟩ hPb).2
    omega
  · rintro ⟨j,rfl,ha,hP,hall⟩
    refine ⟨⟨by omega,by rwa [Nat.add_sub_cancel_left]⟩,hP,fun b l ⟨hle,hb⟩ hPb => ?_⟩
    have hl := hall _ b hb hPb
    rw [hl,ha] at hb
    exact ⟨(Option.some.inj hb).symm,by omega⟩

end

/-! ## Tables side by side -/

/-- A table under the name it goes by in a query. -/
structure NamedTable where
  relation : String
  table : Table

namespace NamedTable

def columns (r : NamedTable) : List ScopeColumn := (Scope.ofTable r.relation r.table).columns

/-- The table of the catalog that an item of a FROM clause names. It goes by its label, or by the
name it has in the catalog. -/
def ofFactor? (c : Catalog) : Sql.TableFactor → Option NamedTable
  | .table [name] label _ _ _ => (c.lookup name.value).map fun t =>
    ⟨(label.map fun a => a.name.value).getD t.name,t⟩
  | _ => none

theorem length_columns (r : NamedTable) : r.columns.length = r.table.width := by
  simp [columns,Scope.ofTable,Table.width]

end NamedTable

/-- The column goes by a name. -/
def ScopeColumn.hasName (cs : Bool) (name : String) (col : ScopeColumn) : Bool :=
  sameName cs col.name name

namespace Binding
variable {n : Names} {rels before after : List NamedTable} {r : NamedTable} {q : String}

/-- The scope of tables that lie side by side and go by different names. -/
structure Spans (n : Names) (rels : List NamedTable) : Prop where
  distinct : rels.Pairwise fun a b => sameName n.caseSensitive a.relation b.relation = false
  relations : n.scope.relations = rels.map NamedTable.relation
  columns : n.scope.columns = rels.flatMap NamedTable.columns

/-- What names and wildcards mean where tables lie side by side. A bare name is the only column of
that name, a qualified one the only one of that name in the table the qualifier names, counted from
behind the tables before. -/
structure Resolves (n : Names) (rels : List NamedTable) : Prop where
  bare : ∀ clause x e, expr n clause (.identifier x) = .ok e ↔ ∃ i col,
    OnlyAt (ScopeColumn.hasName n.caseSensitive x.value) (rels.flatMap NamedTable.columns) i col ∧
      e = .column i col.type
  qualified : ∀ clause path q x e, expr n clause (.compound (path ++ [q,x])) = .ok e ↔
    ∃ before r after i col, rels = before ++ r :: after ∧
      sameName n.caseSensitive r.relation q.value ∧
      OnlyAt (ScopeColumn.hasName n.caseSensitive x.value) r.columns i col ∧
      e = .column ((before.flatMap NamedTable.columns).length+i) col.type
  wildcard : ∀ options, targetsOf n (.wildcard options)
    = .ok ((rels.flatMap NamedTable.columns).zipIdx.map fun p => .column p.2 p.1)
  qualifiedWildcard : ∀ path q options ts,
    targetsOf n (.qualifiedWildcard (path ++ [q]) options) = .ok ts ↔
      ∃ before r after, rels = before ++ r :: after ∧
        sameName n.caseSensitive r.relation q.value ∧
        ts = (r.columns.zipIdx (before.flatMap NamedTable.columns).length).map fun p =>
          .column p.2 p.1

namespace Spans

theorem hasRelation_iff (h : Spans n rels) : n.scope.hasRelation n.caseSensitive q ↔
    ∃ before r after, rels = before ++ r :: after ∧ sameName n.caseSensitive r.relation q := by
  rw [Scope.hasRelation,h.relations,List.any_map,List.any_eq_true]
  constructor
  · rintro ⟨r,hr,hq⟩
    obtain ⟨before,after,hsplit⟩ := List.append_of_mem hr
    exact ⟨before,r,after,hsplit,hq⟩
  · rintro ⟨before,r,after,rfl,hq⟩
    exact ⟨r,by simp,hq⟩

/-- No table but one goes by a name. -/
theorem other_relation (h : Spans n (before ++ r :: after)) (hq : sameName n.caseSensitive r.relation q) :
    ∀ other ∈ before ++ after, sameName n.caseSensitive other.relation q = false := by
  obtain ⟨-,hafter,hbefore⟩ := List.pairwise_append.1 h.distinct
  intro other hother
  by_contra hsame
  have hsame : sameName n.caseSensitive other.relation q := by simpa using hsame
  rcases List.mem_append.1 hother with hother|hother
  · have := hbefore other hother r List.mem_cons_self
    rw [sameName_of_common hsame hq] at this
    cases this
  · have := List.rel_of_pairwise_cons hafter hother
    rw [sameName_of_common hq hsame] at this
    cases this

/-- The places of the columns of one relation follow those of the tables before it. -/
theorem places_relation (h : Spans n (before ++ r :: after))
    (hq : sameName n.caseSensitive r.relation q) :
    n.scope.places.filter (fun p => sameName n.caseSensitive p.1.relation q)
      = r.columns.zipIdx (before.flatMap NamedTable.columns).length := by
  have hnone {rels : List NamedTable} {k : Nat}
      (hother : ∀ other ∈ rels, sameName n.caseSensitive other.relation q = false) :
      ((rels.flatMap NamedTable.columns).zipIdx k).filter
        (fun p => sameName n.caseSensitive p.1.relation q) = [] := by
    refine List.filter_eq_nil_iff.2 fun p hp => ?_
    obtain ⟨other,hmem,hcol⟩ := List.mem_flatMap.1 (List.fst_mem_of_mem_zipIdx hp)
    obtain ⟨col,-,heq⟩ := List.mem_map.1 hcol
    rw [← heq,hother other hmem]
    exact Bool.false_ne_true
  have hall : ∀ p ∈ r.columns.zipIdx (before.flatMap NamedTable.columns).length,
      sameName n.caseSensitive p.1.relation q := by
    intro p hp
    obtain ⟨col,-,heq⟩ := List.mem_map.1 (List.fst_mem_of_mem_zipIdx hp)
    rw [← heq]
    exact hq
  obtain ⟨hbefore,hafter⟩ := List.forall_mem_append.1 (h.other_relation hq)
  rw [Scope.places,h.columns,List.flatMap_append,List.flatMap_cons,List.zipIdx_append,
    List.zipIdx_append,List.filter_append,List.filter_append,hnone hbefore,hnone hafter,Nat.zero_add,
    List.filter_eq_self.2 hall,List.nil_append,List.append_nil]

theorem resolve_bare (h : Spans n rels) {name : String} {e : Expr} :
    n.resolve none name = .ok e ↔ ∃ i col,
      OnlyAt (ScopeColumn.hasName n.caseSensitive name) (rels.flatMap NamedTable.columns) i col ∧
        e = .column i col.type := by
  have hmatches : Scope.matchesName n.caseSensitive none name
      = ScopeColumn.hasName n.caseSensitive name := funext fun col => Bool.and_true _
  rw [Names.resolve,Scope.resolve_eq_ok_iff,Scope.places,h.columns,hmatches]
  constructor
  · rintro ⟨-,col,_,hfilter,rfl⟩
    obtain ⟨i,rfl,honly⟩ := filter_zipIdx_eq_singleton.1 hfilter
    exact ⟨i,col,honly,by rw [Nat.zero_add]⟩
  · rintro ⟨i,col,honly,rfl⟩
    exact ⟨nofun,col,i,filter_zipIdx_eq_singleton.2 ⟨i,(Nat.zero_add i).symm,honly⟩,rfl⟩

theorem resolve_qualified (h : Spans n rels) {name : String} {e : Expr} :
    n.resolve (some q) name = .ok e ↔ ∃ before r after i col, rels = before ++ r :: after ∧
      sameName n.caseSensitive r.relation q ∧
      OnlyAt (ScopeColumn.hasName n.caseSensitive name) r.columns i col ∧
      e = .column ((before.flatMap NamedTable.columns).length+i) col.type := by
  have hplaces {before after : List NamedTable} {r : NamedTable} (hsplit : rels = before ++ r :: after)
      (hq : sameName n.caseSensitive r.relation q) :
      n.scope.places.filter (Scope.matchesName n.caseSensitive (some q) name ·.1)
        = (r.columns.zipIdx (before.flatMap NamedTable.columns).length).filter
          fun p => p.1.hasName n.caseSensitive name := by
    rw [← places_relation (hsplit ▸ h) hq,List.filter_filter]
    rfl
  rw [Names.resolve,Scope.resolve_eq_ok_iff]
  constructor
  · rintro ⟨hrelation,col,_,hfilter,rfl⟩
    obtain ⟨before,r,after,hsplit,hq⟩ := h.hasRelation_iff.1 (hrelation q rfl)
    rw [hplaces hsplit hq] at hfilter
    obtain ⟨i,rfl,honly⟩ := filter_zipIdx_eq_singleton.1 hfilter
    exact ⟨before,r,after,i,col,hsplit,hq,honly,rfl⟩
  · rintro ⟨before,r,after,i,col,hsplit,hq,honly,rfl⟩
    refine ⟨fun _ hq' => ?_,col,_,?_,rfl⟩
    · cases hq'
      exact h.hasRelation_iff.2 ⟨before,r,after,hsplit,hq⟩
    · rw [hplaces hsplit hq]
      exact filter_zipIdx_eq_singleton.2 ⟨i,rfl,honly⟩

theorem targetsOf_qualifiedWildcard (h : Spans n rels) {path : List Sql.Ident} {q : Sql.Ident}
    {options : List String} {ts : List Target} :
    targetsOf n (.qualifiedWildcard (path ++ [q]) options) = .ok ts ↔
      ∃ before r after, rels = before ++ r :: after ∧
        sameName n.caseSensitive r.relation q.value ∧
        ts = (r.columns.zipIdx (before.flatMap NamedTable.columns).length).map fun p =>
          .column p.2 p.1 := by
  have hlast : ((path ++ [q]).getLast?.map Sql.Ident.value).getD "" = q.value := by simp
  rw [targetsOf,hlast]
  constructor
  · intro hts
    split at hts
    · rename_i hrelation
      obtain ⟨before,r,after,rfl,hq⟩ := h.hasRelation_iff.1 hrelation
      cases hts
      exact ⟨before,r,after,rfl,hq,by rw [h.places_relation hq]⟩
    · cases hts
  · rintro ⟨before,r,after,rfl,hq,rfl⟩
    rw [if_pos (h.hasRelation_iff.2 ⟨before,r,after,rfl,hq⟩),h.places_relation hq]

theorem resolves (h : Spans n rels) : Resolves n rels where
  bare clause x e := by
    have hname : expr n clause (.identifier x) = n.resolve none x.value := by
      rw [expr,exprWith]
      rfl
    rw [hname,h.resolve_bare]
  qualified clause path q x e := by
    have hparts : expr n clause (.compound (path ++ [q,x])) = n.resolve (some q.value) x.value := by
      have hcompound : expr n clause (.compound (path ++ [q,x])) = n.resolveParts (path ++ [q,x]) := by
        rw [expr,exprWith]
        rfl
      rw [hcompound,Names.resolveParts]
      simp
    rw [hparts,h.resolve_qualified]
  wildcard options := by rw [targetsOf,Scope.places,h.columns]
  qualifiedWildcard path q options ts := h.targetsOf_qualifiedWildcard

end Spans

end Binding
end QueryPlan
