import QueryPlan.Binding.Query
import QueryPlan.Proofs.Binding.Grouping

/-! # Queries are bound well -/
namespace QueryPlan

namespace Binding

/-! ## Output columns -/

variable {types : List SqlType} {keys : List Expr} {n : Names}

/-- A column that a wildcard stands for is one of the scope. -/
def Target.Fits (types : List SqlType) : Target → Prop
  | .expr _ _ => True
  | .column i c => types[i]? = some c.type

theorem targetsOf_fits {item : Sql.SelectItem} {ts : List Target} (h : targetsOf n item = .ok ts) :
    ∀ t ∈ ts, t.Fits n.scope.types := by
  unfold targetsOf at h
  split at h
  · cases h
    simp [Target.Fits]
  · cases h
    simp only [List.forall_mem_map]
    exact fun p hp => Scope.getElem?_types_of_mem_places hp
  · dsimp only at h
    split at h
    · cases h
      simp only [List.forall_mem_map]
      exact fun p hp => Scope.getElem?_types_of_mem_places (List.mem_filter.1 hp).1
    · cases h

theorem targets_fits {items : List Sql.SelectItem} {ts : List Target} (h : targets n items = .ok ts) :
    ∀ t ∈ ts, t.Fits n.scope.types := by
  obtain ⟨tss,htss,h⟩ := bind_eq_ok_iff.1 h
  cases h
  intro t ht
  obtain ⟨ts,hts,ht⟩ := List.mem_flatten.1 ht
  obtain ⟨i,hi,rfl⟩ := List.getElem_of_mem hts
  have hrel := mapM_eq_ok_iff.1 htss
  exact targetsOf_fits (hrel.get (by rw [hrel.length_eq]; exact hi) hi) t ht

@[simp] theorem length_targetNames (ts : List Target) : (targetNames ts).length = ts.length := by
  simp [targetNames,Plan.uniquify_length]

theorem bind_bound {t : Target} {e : Expr} (ht : t.Fits n.scope.types) (h : t.bind n = .ok e) :
    e.Bound n.scope.types := by
  cases t with
  | expr sql label => exact expr_bound (fun _ _ _ => names_bound) h
  | column i c =>
    cases h
    exact .column ht

/-- What is said of one step of a list is said of all of them. -/
theorem mapM_yields {m : Type → Type} [Monad m] [LawfulMonad m] [MonadLiftT (Except QueryError) m]
    {W : Type} [Preorder W] {O : Outcomes m W} {α β : Type} {f : α → m β} {P : W → β → Prop}
    (hmono : ∀ w w' b, w ≤ w' → P w b → P w' b) (h : ∀ w x, O.Yields w (f x) P) (xs : List α) (w : W) :
    O.Yields w (xs.mapM f) fun w' ys => ys.length = xs.length ∧ ∀ y ∈ ys, P w' y := by
  induction xs generalizing w with
  | nil =>
    rw [List.mapM_nil]
    exact O.pure fun _ _ => ⟨rfl,by simp⟩
  | cons x xs ih =>
    rw [List.mapM_cons]
    refine O.bind (h w x) fun w₁ y _ hy => O.bind (ih w₁) fun w₂ ys hw₂ hys => O.pure fun w' hw' => ?_
    refine ⟨by simp [hys.1],List.forall_mem_cons.2 ⟨hmono _ _ _ (le_trans hw₂ hw') hy,fun y' hy' => ?_⟩⟩
    exact hmono _ _ _ hw' (hys.2 y' hy')

theorem bindGrouped_yields (hnames : n.scope.types = types) (t : Target) (w : Gathered) :
    (gatheringOutcomes types keys).Yields w (t.bindGrouped n keys) fun w' e => e.Bound (w'.types keys) := by
  cases t with
  | expr sql label => exact groupedExpr_yields hnames w
  | column i c =>
    exact (gatheringOutcomes types keys).lift fun _ he _ _ => groupedColumn_bound he

theorem gather_fits {ts : List Target} {having : Option Sql.Expr} {es : List Expr}
    {condition : Option Expr} {g : Gathered} (hnames : n.scope.types = types)
    (hkeys : ∀ e ∈ keys, e.Bound types) (h : gather n keys ts having = .ok ((es,condition),g)) :
    g.Fits types keys ∧ es.length = ts.length ∧ (∀ e ∈ es, e.Bound (g.types keys)) ∧
      ∀ e, condition = some e → e.Bound (g.types keys) ∧ e.type.isBooleanLike := by
  have hyields : (gatheringOutcomes types keys).Yields ⟨keys,[]⟩
      (do
        let es ← ts.mapM (Target.bindGrouped n keys)
        return (es,← having.mapM (groupedCondition n keys)))
      fun w' r => (r.1.length = ts.length ∧ ∀ e ∈ r.1, e.Bound (w'.types keys)) ∧
        ∀ e, r.2 = some e → e.Bound (w'.types keys) ∧ e.type.isBooleanLike := by
    refine (gatheringOutcomes types keys).bind (mapM_yields
      (fun _ _ _ hw h => h.mono (Gathered.types_mono hw)) (fun w t => bindGrouped_yields hnames t w) ts _)
      fun w₁ es _ hes => ?_
    have hes' (w') (hw : w₁ ≤ w') : es.length = ts.length ∧ ∀ e ∈ es, e.Bound (w'.types keys) :=
      ⟨hes.1,fun e he => (hes.2 e he).mono (Gathered.types_mono hw)⟩
    cases having with
    | none => exact (gatheringOutcomes types keys).pure fun w' hw' => ⟨hes' w' hw',by simp⟩
    | some sql =>
      rw [Option.mapM_some,map_eq_pure_bind,bind_assoc]
      refine (gatheringOutcomes types keys).bind (groupedCondition_yields hnames w₁) fun w₂ e hw₂ he => ?_
      rw [pure_bind]
      refine (gatheringOutcomes types keys).pure fun w' hw' => ⟨hes' w' (le_trans hw₂ hw'),?_⟩
      rintro _ ⟨⟩
      exact ⟨he.1.mono (Gathered.types_mono hw'),he.2⟩
  obtain ⟨-,hg,⟨hlen,hes⟩,hc⟩ := hyields _ _ _ le_rfl ⟨List.prefix_refl _,hkeys,by simp⟩ h
  exact ⟨hg,hlen,hes,hc⟩

/-! ## Naming calls -/

theorem map_modify {calls : List AggregateCall} {k : Nat} {f : AggregateCall → AggregateCall}
    (h : ∀ c, { f c with name := "" } = { c with name := "" }) :
    (calls.modify k f).map (fun c => { c with name := "" }) = calls.map fun c => { c with name := "" } := by
  refine List.ext_getElem? fun i => ?_
  simp only [List.getElem?_map,List.getElem?_modify]
  split
  · cases calls[i]? with
    | none => rfl
    | some c => exact congrArg some (h c)
  · cases calls[i]? <;> rfl

theorem nameCall_spec (keyCount : Nat) (calls : List AggregateCall) (t : Target) (e : Expr)
    (name : String) : (nameCall keyCount calls t e name).map (fun c => { c with name := "" })
      = calls.map fun c => { c with name := "" } := by
  unfold nameCall
  split
  · split
    · refine map_modify fun c => ?_
      split <;> rfl
    · rfl
  · rfl

/-- Calls get names, and nothing else of them changes. -/
theorem nameCalls_spec (keyCount : Nat) (ts : List Target) (es : List Expr) (names : List String)
    (calls : List AggregateCall) :
    (nameCalls keyCount ts es names calls).map (fun c => { c with name := "" })
      = calls.map fun c => { c with name := "" } := by
  fun_induction nameCalls keyCount ts es names calls with
  | case1 calls t ts e es name names ih => rw [ih,nameCall_spec]
  | case2 => rfl

theorem nameCalls_fits {keyCount : Nat} {ts : List Target} {es : List Expr} {names : List String}
    {calls : List AggregateCall} (h : ∀ c ∈ calls, c.Fits types) :
    ∀ c ∈ nameCalls keyCount ts es names calls, c.Fits types := by
  intro c hc
  have hmem : { c with name := "" } ∈ calls.map fun c => ({ c with name := "" } : AggregateCall) := by
    rw [← nameCalls_spec keyCount ts es names calls]
    exact List.mem_map_of_mem hc
  obtain ⟨d,hd,heq⟩ := List.mem_map.1 hmem
  have hfits : ({ d with name := "" } : AggregateCall).Fits types := h d hd
  rwa [heq] at hfits

theorem map_type_nameCalls (keyCount : Nat) (ts : List Target) (es : List Expr) (names : List String)
    (calls : List AggregateCall) : (nameCalls keyCount ts es names calls).map AggregateCall.type
      = calls.map AggregateCall.type := by
  have h := congrArg (List.map AggregateCall.type) (nameCalls_spec keyCount ts es names calls)
  rwa [List.map_map,List.map_map] at h

/-! ## Queries -/

variable {c : Catalog} {input p : Plan} {es : List Expr}

theorem projectDerived_bound (hi : input.Bound) (he : ∀ e ∈ es, e.Bound input.types) :
    (input.projectDerived es).Bound :=
  .project hi he (by simp [Plan.uniquify_length])

/-- A plan with the expressions that a projection computes above it. -/
def Computes (p : Plan) (es : List Expr) : Prop := p.Bound ∧ ∀ e ∈ es, e.Bound p.types

theorem aggregation_bound {groupBy : List Sql.Expr} {ts : List Target} {names : List String}
    {having : Option Sql.Expr} (hi : input.Bound) (hn : n.scope.types = input.types)
    (h : aggregation n input groupBy ts names having = .ok (p,es)) :
    Computes p es ∧ es.length = ts.length := by
  obtain ⟨keys,hkeys,h⟩ := bind_eq_ok_iff.1 h
  obtain ⟨⟨⟨es',condition⟩,g⟩,hg,h⟩ := bind_eq_ok_iff.1 h
  obtain ⟨hfits,hlen,hes,hcondition⟩ := gather_fits hn (groupKeys_bound hn hkeys) hg
  obtain ⟨inputs,hinputs⟩ : ∃ inputs : List Expr,
      inputs = if g.inputs.isEmpty then [.literal (.integer 0)] else g.inputs := ⟨_,rfl⟩
  have hall : ∀ e ∈ inputs, e.Bound input.types := by
    rw [hinputs]
    split
    · simpa using .literal _
    · exact hfits.inputs
  have hfront : g.inputs <+: inputs := by
    rw [hinputs]
    split
    · rename_i hempty
      rw [List.isEmpty_iff.1 hempty]
      exact List.nil_prefix
    · exact List.prefix_refl _
  obtain ⟨rest,hrest⟩ := hfits.keys.trans hfront
  obtain ⟨plan,hplan⟩ : ∃ plan, plan = Plan.aggregate (input.projectDerived inputs)
      (List.range keys.length) (nameCalls keys.length ts es' names g.calls) := ⟨_,rfl⟩
  have hbound : plan.Bound := by
    rw [hplan]
    refine .aggregate (projectDerived_bound hi hall) (fun k hk => ?_)
      (nameCalls_fits fun c hc => (hfits.calls c hc).mono (hfront.map _))
    rw [Plan.projectDerived,Plan.width,← hrest,List.length_append]
    exact Nat.lt_add_right _ (List.mem_range.1 hk)
  have htypes : plan.types = g.types keys := by
    have hkeytypes := Plan.filterMap_getElem?_range (keys.map Expr.type) (rest.map Expr.type)
    rw [List.length_map,← List.map_append,hrest] at hkeytypes
    rw [hplan,Plan.types,map_type_nameCalls]
    exact congrArg (· ++ _) hkeytypes
  subst hinputs
  cases condition with
  | none =>
    cases h
    subst hplan
    exact ⟨⟨hbound,fun e he => htypes ▸ hes e he⟩,hlen⟩
  | some e =>
    cases h
    subst hplan
    obtain ⟨he,hb⟩ := hcondition e rfl
    exact ⟨⟨.filter hbound (htypes ▸ he) hb,fun e he => htypes ▸ hes e he⟩,hlen⟩

theorem filtered_bound {selection : Option Sql.Expr} (hi : input.Bound)
    (hn : n.scope.types = input.types) (h : filtered n input selection = .ok p) :
    p.Bound ∧ p.types = input.types := by
  obtain rfl|⟨e,bound,-,he,-,rfl⟩ := filtered_eq_ok h
  · exact ⟨hi,rfl⟩
  · obtain ⟨hbound,hb⟩ := condition_bound (fun _ _ _ => names_bound) he
    exact ⟨.filter hi (hn ▸ hbound) hb,rfl⟩

theorem distinct_bound {d : Option Sql.Distinct} {q : Plan} (hp : p.Bound)
    (h : distinct p d = .ok q) : q.Bound := by
  obtain rfl|rfl := distinct_eq_ok h
  · exact hp
  · exact .aggregate hp (fun g hg => List.mem_range.1 hg) (by simp)

theorem project_bound {ts : List Target} (h : Computes p es ∧ es.length = ts.length) :
    (Plan.project p es (targetNames ts)).Bound :=
  .project h.1.1 h.1.2 (by simpa using h.2)

theorem select_bound {s : Sql.Select} (h : select c s = .ok p) : p.Bound := by
  obtain ⟨tables,scope,input,ts,plan,es,htables,hinput,hts,hplan,hp⟩ := select_eq_ok h
  obtain ⟨hbound,hscope⟩ := fromClause_inScope htables
  obtain ⟨hi,htypes⟩ := filtered_bound hbound hscope hinput
  have hn : scope.types = input.types := hscope.trans htypes.symm
  rcases hplan with ⟨rfl,hes⟩|⟨groupBy,hagg⟩
  · have hrel := mapM_eq_ok_iff.1 hes
    refine distinct_bound (project_bound ⟨⟨hi,fun e he => ?_⟩,hrel.length_eq.symm⟩) hp
    obtain ⟨i,hlt,rfl⟩ := List.getElem_of_mem he
    have hlt' : i < ts.length := by rwa [hrel.length_eq]
    exact hn ▸ bind_bound (targets_fits hts _ (List.get_mem ts ⟨i,hlt'⟩)) (hrel.get hlt' hlt)
  · exact distinct_bound (project_bound (aggregation_bound hi hn hagg)) hp

theorem query_bound {q : Sql.Query} (h : query c q = .ok p) : p.Bound := by
  obtain ⟨s,-,hs⟩ := select_of_query h
  exact select_bound hs

end Binding

namespace Plan

/-- At every operator of a bound plan columns and aggregate calls fit the row they read, calls have
the types of their operands, conditions are BOOLEAN or NULL, projected expressions have names, the
width is the number of output columns, and connectives are flat. -/
def WellBound (p : Plan) : Prop :=
  p.Everywhere fun n => n.ColumnsFit ∧ n.CallsTyped ∧ n.ConditionFits ∧ n.NamesFit ∧
    n.width = n.fields.length ∧ ∀ e ∈ n.exprs, e.Everywhere Expr.ConnectiveFlat

end Plan

/-- Whatever the binder makes of a query over a catalog is a well-formed plan. -/
theorem Catalog.bind_wellBound {c : Catalog} {q : Sql.Query} {p : Plan} (h : c.bind q = .ok p) :
    p.WellBound := by
  have hbound : p.Bound := Binding.query_bound h
  intro n hn
  obtain ⟨hcolumns,hnames,hcalls,hcondition,hflat⟩ := hbound n hn
  have hplaced : n.WellPlaced :=
    ⟨fun m hm => (hbound.of_mem hn m hm).columns,fun m hm => (hbound.of_mem hn m hm).names⟩
  exact ⟨hcolumns,hcalls,hcondition,hnames,hplaced.length_fields.symm,hflat⟩

section
open Sql

private def namedColumn (s : String) : Sql.Expr := .identifier ⟨s,none⟩

private def wholeNumber (s : String) : Sql.Expr := .value (.number s false)

private def countRows : Sql.Expr := .function [⟨"COUNT",none⟩] [.wildcard] none {}

/-- Cities with more than three orders of some size. -/
def busyCities : Sql.Query := .mk {} (.select {
    distinct := none
    top := none
    items := [.expr (namedColumn "city") none,.expr countRows none]
    into := none
    tables := [⟨.table [⟨"orders",none⟩] none none [] [],[⟨.inner,
      .table [⟨"customers",none⟩] none none [] [],
      .on (.binary (namedColumn "customer") .eq (.compound [⟨"customers",none⟩,⟨"id",none⟩]))⟩]⟩]
    lateralViews := []
    selection := some (.binary (.binary (namedColumn "total") .gt (wholeNumber "10")) .and
      (.between (namedColumn "total") false (wholeNumber "5") (wholeNumber "20")))
    groupBy := .exprs [namedColumn "city"]
    clusterBy := []
    distributeBy := []
    sortBy := []
    having := some (.binary countRows .gt (wholeNumber "3"))
    windows := []
    qualify := none })

def busyCitiesPlan : Plan :=
  .project (.filter (.aggregate (.project (.filter (.join (.scan orders) (.scan customers)
        (.call .eq [.column 2 .integer,.column 3 .integer] .boolean) .inner)
      (.call .and [.call .gt [.column 1 .integer,.literal (.integer 10)] .boolean,
        .call .gtEq [.column 1 .integer,.literal (.integer 5)] .boolean,
        .call .ltEq [.column 1 .integer,.literal (.integer 20)] .boolean] .boolean))
    [.column 4 .varchar] ["city"]) [0] [⟨.count,false,[],.bigInt,"EXPR$1"⟩])
    (.call .gt [.column 1 .bigInt,.literal (.integer 3)] .boolean))
  [.column 0 .varchar,.column 1 .bigInt] ["city","EXPR$1"]

theorem bind_busyCities : shop.bind busyCities = .ok busyCitiesPlan ∧ busyCitiesPlan.WellBound := by
  have hbind : shop.bind busyCities = .ok busyCitiesPlan := by decide +kernel
  exact ⟨hbind,Catalog.bind_wellBound hbind⟩

end

end QueryPlan
