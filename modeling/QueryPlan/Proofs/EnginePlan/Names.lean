import QueryPlan.Proofs.Binding.FoldedQueries
import QueryPlan.Proofs.Binding.IgnoredClauses

/-! # Names never reach the engine

Where a catalog does not tell the case of letters apart, the spelling of names and the labels of
output columns decide neither whether a query is refused nor what the engine is given. -/
namespace QueryPlan

/-- Queries that differ in the case of unquoted names and in labels are refused when they are bound
with one code, or refused by the rules with one error, or planned with one engine plan or one reason
why there is none. -/
theorem Catalog.encode_eq_of_folded_eq {c : Catalog} (hc : c.caseSensitive = false)
    {q q' : Sql.Query} (hq : q.folded = q'.folded) (limit : Nat) :
    (∃ e e', c.bind q = .error e ∧ c.bind q' = .error e' ∧ e.code = e'.code) ∨
    ∃ p p', c.bind q = .ok p ∧ c.bind q' = .ok p' ∧
      ((∃ e, (optimise limit defaultRules p).1 = .error e ∧
          (optimise limit defaultRules p').1 = .error e) ∨
        ∃ r r', (optimise limit defaultRules p).1 = .ok r ∧
          (optimise limit defaultRules p').1 = .ok r' ∧ EnginePlan.encode r = EnginePlan.encode r') := by
  have hfolded := Binding.query_folded hc q'
  rw [← hq] at hfolded
  have hbind := (Binding.query_folded hc q).meet hfolded
  unfold bind
  generalize Binding.query c q = x,Binding.query c q' = y at hbind ⊢
  cases hbind with
  | error h =>
    obtain ⟨e,he,he'⟩ := h
    exact .inl ⟨_,_,rfl,rfl,he.trans he'.symm⟩
  | @ok p p' h =>
    obtain ⟨s,hp,hp'⟩ := h
    refine .inr ⟨p,p',rfl,rfl,?_⟩
    have hruns := (optimise_renamed limit hp).meet (optimise_renamed limit hp')
    generalize (optimise limit defaultRules p).1 = x,(optimise limit defaultRules p').1 = y at hruns ⊢
    cases hruns with
    | error h =>
      obtain ⟨e,rfl,rfl⟩ := h
      exact .inl ⟨_,rfl,rfl⟩
    | ok h =>
      obtain ⟨t,hr,hr'⟩ := h
      exact .inr ⟨_,_,rfl,rfl,hr.encode_eq.trans hr'.encode_eq.symm⟩

/-- The query `SELECT relation.city AS label, COUNT(*) FROM table AS relation GROUP BY city` with its
names spelt in some way. -/
def citiesCounted (table relation city count : String) (label : Option Sql.Ident) : Sql.Query :=
  .mk {} (.select { customerIds with
    items := [.expr (.compound [⟨relation,none⟩,⟨city,none⟩]) label,
      .expr (.function [⟨count,none⟩] [.wildcard] none {}) none]
    tables := [⟨.table [⟨table,none⟩] (some ⟨⟨relation,none⟩,[]⟩) none [] [],[]⟩]
    groupBy := .exprs [.identifier ⟨city,none⟩] })

/-- Its plan, by the name of the first output column. -/
def citiesCountedPlan (label : String) : Plan :=
  .project (.aggregate (.project (.scan customers) [.column 1 .varchar] ["city"]) [0]
    [⟨.count,false,[],.bigInt,"EXPR$1"⟩]) [.column 0 .varchar,.column 1 .bigInt] [label,"EXPR$1"]

def caselessShop : Catalog := { shop with caseSensitive := false }

theorem bind_citiesCounted : caselessShop.bind (citiesCounted "customers" "c" "city" "COUNT" none) =
    .ok (citiesCountedPlan "city") := by decide +kernel

theorem isOk_optimise_citiesCountedPlan :
    (optimise 5 defaultRules (citiesCountedPlan "city")).1.isOk = true := by decide +kernel

/-- One query in two spellings: the second one is planned because the first one is, and the engine
is given the same plan. -/
theorem encode_eq_of_folded_eq_citiesCounted :
    (citiesCounted "customers" "c" "city" "COUNT" none).folded =
      (citiesCounted "Customers" "C" "CITY" "count" (some ⟨"town",none⟩)).folded ∧
    ∃ p r r',
      caselessShop.bind (citiesCounted "Customers" "C" "CITY" "count" (some ⟨"town",none⟩)) = .ok p ∧
      (optimise 5 defaultRules (citiesCountedPlan "city")).1 = .ok r ∧
      (optimise 5 defaultRules p).1 = .ok r' ∧ EnginePlan.encode r = EnginePlan.encode r' := by
  have hfolded : (citiesCounted "customers" "c" "city" "COUNT" none).folded =
      (citiesCounted "Customers" "C" "CITY" "count" (some ⟨"town",none⟩)).folded := by
    have htable : Sql.Ident.folded ⟨"customers",none⟩ = Sql.Ident.folded ⟨"Customers",none⟩ :=
      Sql.Ident.folded_eq_folded (by decide)
    have hrelation : Sql.Ident.folded ⟨"c",none⟩ = Sql.Ident.folded ⟨"C",none⟩ :=
      Sql.Ident.folded_eq_folded (by decide)
    have hcity : Sql.Ident.folded ⟨"city",none⟩ = Sql.Ident.folded ⟨"CITY",none⟩ :=
      Sql.Ident.folded_eq_folded (by decide)
    have hcount : Sql.Ident.folded ⟨"COUNT",none⟩ = Sql.Ident.folded ⟨"count",none⟩ :=
      Sql.Ident.folded_eq_folded (by decide)
    simp only [citiesCounted,Sql.Query.folded,Sql.Body.folded,Sql.Select.folded,List.map_cons,
      List.map_nil,Sql.SelectItem.folded,Sql.Expr.folded,Sql.TableWithJoins.folded,
      Sql.TableFactor.folded,Sql.TableAlias.folded,Sql.GroupBy.folded,Option.map_some,htable,
      hrelation,hcity,hcount]
  refine ⟨hfolded,?_⟩
  obtain ⟨e,-,he,-⟩ | ⟨p,p',hp,hp',hruns⟩ :=
    Catalog.encode_eq_of_folded_eq (c := caselessShop) rfl hfolded 5
  · rw [bind_citiesCounted] at he
    cases he
  · obtain rfl := Except.ok.inj (bind_citiesCounted.symm.trans hp)
    obtain ⟨e,he,-⟩ | ⟨r,r',hruns⟩ := hruns
    · have hok := isOk_optimise_citiesCountedPlan
      rw [he] at hok
      cases hok
    · exact ⟨p',r,r',hp',hruns⟩

end QueryPlan
