import Mathlib.Data.List.Sort
import QueryPlan.Planning
import QueryPlan.Proofs.Binding.Query
import QueryPlan.Proofs.EnginePlan.Faithful
import QueryPlan.Proofs.EnginePlan.Numbering
import QueryPlan.Proofs.Rewrite.JoinSides

/-! # Lines of joins

The line of a join names two columns of the joined row, the lower first. They belong to different
inputs, unless the query compares two columns of one input in an ON clause. -/
namespace QueryPlan

theorem Plan.WellBound.wellPlaced {p : Plan} (h : p.WellBound) : p.WellPlaced :=
  ⟨fun n hn => (h n hn).1,fun n hn => (h n hn).2.2.2.1⟩

namespace Catalog

variable {c : Catalog} {limit : Nat} {rules : List RewriteRule} {sql : String} {p q : Plan}

theorem bindText_wellBound (h : c.bindText sql = .ok p) : p.WellBound := by
  obtain ⟨query,-,hbind⟩ := bind_eq_ok_iff.1 h
  exact bind_wellBound hbind

theorem plan_eq_ok (h : (c.plan limit rules sql).1 = .ok q) :
    ∃ p, c.bindText sql = .ok p ∧ (optimise limit rules p).1 = .ok q := by
  unfold plan at h
  split at h
  case h_1 => cases h
  case h_2 p hp => exact ⟨p,hp,h⟩

theorem plan_of_bindText (hbind : c.bindText sql = .ok p)
    (hoptimise : (optimise limit rules p).1 = .ok q) : (c.plan limit rules sql).1 = .ok q := by
  rw [plan,hbind]
  exact hoptimise

end Catalog

namespace EnginePlan

/-- The line of a join whose inputs are on given lines. It compares two columns of one type that the
joined row has. -/
structure JoinLine (left right : Plan) (i j lower higher : Nat) (line : String) : Prop where
  text : line = "J;" ++ toString i ++ ";" ++ toString j ++ ";" ++ toString lower ++ ";" ++
    toString higher
  ordered : lower ≤ higher
  lt : higher < left.width + right.width
  types : (left.types ++ right.types)[lower]? = (left.types ++ right.types)[higher]?

theorem joinLine {left right : Plan} {condition : Expr} {kind : JoinKind} {i j : Nat} {line : String}
    (h : LineOf (.join left right condition kind) [i,j] line)
    (hp : (Plan.join left right condition kind).WellPlaced) :
    ∃ lower higher, JoinLine left right i j lower higher line ∧
      (condition.JoinsAcross left.width → lower < left.width ∧ left.width ≤ higher) := by
  obtain ⟨hfits,hl,hr⟩ := Plan.wellPlaced_join.1 hp
  cases h with
  | @join _ _ _ _ _ _ lower higher columns =>
    obtain ⟨-,a,b,s,t,rfl,rfl,rfl⟩ := equiColumns_eq_ok columns
    have ha : (left.types ++ right.types)[a]? = some s :=
      Expr.fits_column.1 (Expr.fits_call.1 hfits _ (by simp))
    have hb : (left.types ++ right.types)[b]? = some s :=
      Expr.fits_column.1 (Expr.fits_call.1 hfits _ (by simp))
    obtain ⟨hlower,hhigher⟩ := getElem?_min_max ha hb
    have hlt := (List.getElem?_eq_some_iff.1 hhigher).1
    rw [List.length_append,hl.length_types,hr.length_types] at hlt
    exact ⟨_,_,⟨rfl,by omega,hlt,hlower.trans hhigher.symm⟩,Expr.joinsAcross_columnEquality.1⟩

end EnginePlan

/-- Every join of a query that is planned and encoded has a line in its place, with the lines of its
inputs and two columns of one type that it joins. If no ON clause of the query compares two columns
of one input, the lower column belongs to the left input and the higher to the right one. -/
theorem Catalog.plan_joinLines {c : Catalog} {limit : Nat} {sql text : String} {q : Plan}
    (hplan : (c.plan limit defaultRules sql).1 = .ok q) (hencode : EnginePlan.encode q = .ok text) :
    ∃ (p : Plan) (lines : List String), c.bindText sql = .ok p ∧
      text = String.join (lines.map (· ++ "\n")) ∧
      ∀ (k : Nat) (left right : Plan) (condition : Expr) (kind : JoinKind),
        q.postorder[k]? = some (.join left right condition kind) →
        q.postorder[k-1-right.size]? = some left ∧ q.postorder[k-1]? = some right ∧
        ∃ line lower higher, lines[k]? = some line ∧
          EnginePlan.JoinLine left right (k-1-right.size) (k-1) lower higher line ∧
          (p.Everywhere Plan.JoinsAcross → lower < left.width ∧ left.width ≤ higher) := by
  obtain ⟨p,hbind,hoptimise⟩ := plan_eq_ok hplan
  obtain ⟨lines,hlines,rfl⟩ := map_eq_ok_iff.1 hencode
  refine ⟨p,lines,hbind,rfl,fun k left right condition kind hk => ?_⟩
  have hp := (bindText_wellBound hbind).wellPlaced
  have hacross := optimise_keepsAcross hoptimise
  have hq := (hacross.1 hp).1
  have hnumbered := EnginePlan.encodeLines_numbered hlines
  have hmem := Plan.mem_postorder.1 (List.mem_of_getElem? hk)
  have hjoin : (Plan.join left right condition kind).WellPlaced :=
    ⟨Plan.Everywhere.of_mem hq.columns hmem,Plan.Everywhere.of_mem hq.names hmem⟩
  obtain ⟨line,hline,hof⟩ := hnumbered.line k _ hk
  obtain ⟨lower,higher,hjoinLine,hsides⟩ := EnginePlan.joinLine hof hjoin
  have hinputs : [(q.postorder.take k)[k-1-right.size]?,(q.postorder.take k)[k-1]?] =
      [some left,some right] := hnumbered.inputs k _ hk
  simp only [List.cons.injEq] at hinputs
  obtain ⟨hleft,hright,-⟩ := hinputs
  refine ⟨EnginePlan.Numbered.getElem?_of_take hleft,EnginePlan.Numbered.getElem?_of_take hright,
    line,lower,higher,hline,hjoinLine,fun h => hsides ?_⟩
  exact hacross.2 hp h _ hmem

/-- Orders with customers, on two columns of a join. -/
def ordersJoined (i j : Nat) : Plan :=
  .project (.join (.scan orders) (.scan customers)
    (.call .eq [.column i .integer,.column j .integer] .boolean) .inner)
  [.column 1 .integer,.column 4 .varchar] ["total","city"]

def ordersOfCustomers : String :=
  "SELECT total, city FROM orders JOIN customers ON customer = customers.id"

def ordersOfCustomersOptimised : Plan :=
  .project (.join (.arrowScan orders [1,2]) (.arrowScan customers [0,1])
    (.call .eq [.column 1 .integer,.column 2 .integer] .boolean) .inner)
  [.column 0 .integer,.column 3 .varchar] ["total","city"]

def ordersOfCustomersText : String :=
  "S;orders;true;1,2\nS;customers;false;0,1\nJ;0;1;1;2\nP;2;[$0, $3]\n"

def ordersJoinedWithin : String :=
  "SELECT total, city FROM orders JOIN customers ON total = customer"

def ordersJoinedWithinOptimised : Plan :=
  .project (.join (.arrowScan orders [1,2]) (.arrowScan customers [1])
    (.call .eq [.column 0 .integer,.column 1 .integer] .boolean) .inner)
  [.column 0 .integer,.column 2 .varchar] ["total","city"]

theorem bindText_ordersJoined :
    shop.bindText ordersOfCustomers = .ok (ordersJoined 2 3) ∧
    shop.bindText ordersJoinedWithin = .ok (ordersJoined 1 2) := by decide +kernel

theorem plan_ordersJoined :
    (shop.plan 1000 defaultRules ordersOfCustomers).1 = .ok ordersOfCustomersOptimised ∧
    (shop.plan 1000 defaultRules ordersJoinedWithin).1 = .ok ordersJoinedWithinOptimised := by
  obtain ⟨hbind,hbindWithin⟩ := bindText_ordersJoined
  have hrun : (optimise 1000 defaultRules (ordersJoined 2 3)).1 = .ok ordersOfCustomersOptimised ∧
      (optimise 1000 defaultRules (ordersJoined 1 2)).1 = .ok ordersJoinedWithinOptimised := by
    unfold defaultRules ColumnPruning.rule
    delta ColumnPruning.apply
    simp only [mergeSort_le]
    decide +kernel
  exact ⟨Catalog.plan_of_bindText hbind hrun.1,Catalog.plan_of_bindText hbindWithin hrun.2⟩

theorem plan_joinLines_ordersOfCustomers :
    (shop.plan 1000 defaultRules ordersOfCustomers).1 = .ok ordersOfCustomersOptimised ∧
    EnginePlan.encode ordersOfCustomersOptimised = .ok ordersOfCustomersText ∧
    ∃ line lower higher,
      EnginePlan.JoinLine (.arrowScan orders [1,2]) (.arrowScan customers [0,1]) 0 1 lower higher line ∧
      lower < 2 ∧ 2 ≤ higher := by
  have hbind := bindText_ordersJoined.1
  have hplan := plan_ordersJoined.1
  have hencode : EnginePlan.encode ordersOfCustomersOptimised = .ok ordersOfCustomersText := by
    decide +kernel
  obtain ⟨p,lines,hp,-,hjoins⟩ := Catalog.plan_joinLines hplan hencode
  obtain rfl : p = ordersJoined 2 3 := Except.ok.inj (hp.symm.trans hbind)
  have hacross : (ordersJoined 2 3).Everywhere Plan.JoinsAcross := by
    simp [ordersJoined,orders,Plan.JoinsAcross,Straddles,Plan.width,Table.width]
  obtain ⟨-,-,line,lower,higher,-,hline,hsides⟩ := hjoins 2 _ _ _ _ rfl
  exact ⟨hplan,hencode,line,lower,higher,hline,hsides hacross⟩

/-- Both columns that this query joins on belong to the orders, which have two columns here. -/
theorem encode_ordersJoinedWithin :
    (shop.plan 1000 defaultRules ordersJoinedWithin).1 = .ok ordersJoinedWithinOptimised ∧
    EnginePlan.encode ordersJoinedWithinOptimised =
      .ok "S;orders;true;1,2\nS;customers;true;1\nJ;0;1;0;1\nP;2;[$0, $2]\n" ∧
    ∃ left right condition kind,
      ordersJoinedWithinOptimised.postorder[2]? = some (.join left right condition kind) ∧
      EnginePlan.equiColumns kind condition = .ok (0,1) ∧ left.width = 2 ∧ ¬ left.width ≤ 1 :=
  ⟨plan_ordersJoined.2,by decide +kernel,_,_,_,_,rfl,rfl,rfl,by decide⟩

end QueryPlan
