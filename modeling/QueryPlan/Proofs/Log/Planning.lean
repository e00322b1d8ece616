import QueryPlan.Isolate.Session
import QueryPlan.Proofs.Log.Logger

/-! # Planning with a logger at hand

Each step hands its entries to the logger where they come up, and asks first whether traces are written
before it makes one. Values and entries are those of the steps that return both. -/
namespace QueryPlan

/-! ## Rules -/

namespace RewriteRule
variable (rule : RewriteRule) (limit : Nat)

def limitReached : LogEntry :=
  ⟨.warn,"RULE_ITERATION_LIMIT",[("rule",rule.name),("limit",toString limit)],false⟩

def applied (passes : Nat) : LogEntry :=
  ⟨.trace,"RULE_APPLIED",[("rule",rule.name),("passes",toString passes)],false⟩

/-- The loop of a rule after as many passes, with as many left up to the limit. -/
def settleLogging : Nat → Nat → Plan → Logging (Except QueryError (Plan × Nat))
  | 0,passes,p => return .ok (p,passes)
  | left+1,passes,p =>
    match rule.pass p with
    | .error e => return .error e
    | .ok none => return .ok (p,passes)
    | .ok (some q) =>
      if limit ≤ passes+1 then do
        Logger.log (rule.limitReached limit)
        return .ok (q,passes+1)
      else settleLogging left (passes+1) q

def reportApplied (passes : Nat) : Logging Unit :=
  if 0 < passes then Logger.whenEnabled .trace (Logger.log (rule.applied passes)) else pure ()

variable {limit}

theorem settle_succ {left : Nat} {p : Plan} : rule.settle (left+1) p =
    (rule.pass p).bind fun
      | none => .ok (p,0)
      | some q => (rule.settle left q).map fun r => (r.1,r.2+1) := by
  rw [settle]
  refine congrArg (rule.pass p).bind (funext fun r => ?_)
  cases r with
  | none => rfl
  | some q => cases rule.settle left q <;> rfl

/-- The loop comes to what the counted passes come to, and warns if they use up the limit. -/
theorem settleLogging_logs {left passes : Nat} (hlimit : passes+left = limit) (hleft : 0 < left)
    (p : Plan) : Logs (rule.settleLogging limit left passes p)
      (match rule.settle left p with
        | .error e => (.error e,[])
        | .ok (q,more) => (.ok (q,passes+more),
            if limit ≤ passes+more then [rule.limitReached limit] else [])) := by
  -- One side counts passes on the way down, the other one on the way back, so `passes` is left open.
  induction left generalizing passes p with
  | zero => exact absurd hleft (Nat.lt_irrefl 0)
  | succ left ih =>
    rw [settleLogging,settle_succ]
    cases rule.pass p with
    | error e => exact .pure _
    | ok r =>
      cases r with
      | none =>
        have hbelow : ¬ limit ≤ passes+0 := by omega
        simp only [Except.bind,if_neg hbelow]
        exact .pure _
      | some q =>
        cases left with
        | zero =>
          have hreached : limit ≤ passes+1 := by omega
          simp only [Except.bind,Except.map,settle,Nat.zero_add,if_pos hreached]
          exact .log_bind (.pure _)
        | succ left =>
          have hbelow : ¬ limit ≤ passes+1 := by omega
          have hcounted : passes+1+(left+1) = limit := by omega
          have hrest := ih hcounted (Nat.succ_pos left) q
          have hcount : ∀ more, passes+1+more = passes+(more+1) := fun more => by omega
          simp only [if_neg hbelow,Except.bind]
          cases hsettle : rule.settle (left+1) q with
          | error e => simpa [hsettle,Except.map] using hrest
          | ok r => simpa [hsettle,Except.map,hcount] using hrest

theorem reportApplied_logs (passes : Nat) : Logs (rule.reportApplied passes)
    ((),if 0 < passes then [rule.applied passes] else []) := by
  unfold reportApplied
  split
  · exact (Logs.log _).whenEnabled (by simp [applied])
  · exact .pure ()

end RewriteRule

def optimiseLogging (limit : Nat) : List RewriteRule → Plan → Logging (Except QueryError Plan)
  | [],p => return .ok p
  | rule :: rules,p => do
    match ← rule.settleLogging (max limit 1) (max limit 1) 0 p with
    | .error e => return .error e
    | .ok (q,passes) =>
      rule.reportApplied passes
      optimiseLogging limit rules q

theorem optimiseLogging_logs (limit : Nat) (rules : List RewriteRule) (p : Plan) :
    Logs (optimiseLogging limit rules p) (optimise limit rules p) := by
  induction rules generalizing p with
  | nil => exact .pure _
  | cons rule rules ih =>
    have hloop := rule.settleLogging_logs (Nat.zero_add (max limit 1)) (by omega) p
    rw [optimiseLogging,optimise]
    cases hsettle : rule.settle (max limit 1) p with
    | error e =>
      rw [hsettle] at hloop
      exact .bind hloop (.pure _)
    | ok r =>
      obtain ⟨q,passes⟩ := r
      rw [hsettle] at hloop
      simp only [Nat.zero_add] at hloop
      dsimp only [RewriteRule.entries]
      rw [List.append_assoc]
      refine hloop.bind ?_
      exact (rule.reportApplied_logs passes).bind (ih q)

namespace Catalog
variable (c : Catalog) (limit : Nat) (rules : List RewriteRule) (text : String)

def planLogging : Logging (Except QueryError Plan) :=
  match c.bindText text with
  | .error e => return .error e
  | .ok bound => do
    Logger.whenEnabled .trace (Logger.log ⟨.trace,"PLAN_BOUND",[("plan",bound.explain)],false⟩)
    optimiseLogging limit rules bound

theorem planLogging_logs : Logs (c.planLogging limit rules text) (c.plan limit rules text) := by
  unfold planLogging plan
  cases c.bindText text with
  | error e => exact .pure _
  | ok bound => exact .check_bind rfl (optimiseLogging_logs limit rules bound)

end Catalog

/-! ## Requests -/

namespace Isolate
variable (s : Isolate) (fs : FileSystem)

def respondLogging (c : Catalog) (r : PlanRequest) : Logging (Except IsolateError PlanResponse) :=
  match r.readQuery fs with
  | .error e => return .error (.query e)
  | .ok text => do
    match ← c.planLogging s.maxRuleIterations s.rules text with
    | .error e => return .error (.query e)
    | .ok p =>
      Logger.whenEnabled .trace (Logger.log
        ⟨.trace,Event.planOptimised.name,[s.idField,("plan",p.explain)],false⟩)
      match EnginePlan.encode p with
      | .error e => return .error (.encode e)
      | .ok plan =>
        Logger.log (Event.planEncoded.entry [("lines",toString (lineCount plan))])
        return .ok { plan,explain := p.explain,tables := p.tableNames }

theorem respondLogging_logs (c : Catalog) (r : PlanRequest) :
    Logs (s.respondLogging fs c r) (s.respond fs c r) := by
  unfold respondLogging respond
  cases r.readQuery fs with
  | error e => exact .pure _
  | ok text =>
    have hplan := c.planLogging_logs s.maxRuleIterations s.rules text
    dsimp only
    rcases hplanned : c.plan s.maxRuleIterations s.rules text with ⟨e|p,entries⟩
    all_goals
      rw [hplanned] at hplan
      dsimp only
    case error => exact hplan.bind_pure rfl
    case ok =>
      cases hencode : EnginePlan.encode p with
      | error e =>
        refine hplan.bind (.check_bind rfl ?_)
        rw [hencode]
        exact .pure _
      | ok plan =>
        refine hplan.bind (.check_bind rfl ?_)
        rw [hencode]
        exact .log_bind (.pure _)

end Isolate

end QueryPlan
