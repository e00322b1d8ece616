import QueryPlan.Proofs.Isolate.History

/-! # Counters account for every operation

The counters of a registry are read off the replies that its operations gave. Only the uses of kept
catalogs do not show in a reply; these are bounded. -/
namespace QueryPlan
open History Metrics

namespace Performed

/-- A request was served on a live handle, with success. -/
def succeeded (p : Performed) : Bool :=
  match p.reply with
  | .planned h (.ok _) => p.before.isLive h
  | _ => false

/-- A request was served on a live handle, and failed. -/
def failed (p : Performed) : Bool :=
  match p.reply with
  | .planned h (.error (.failed _)) => p.before.isLive h
  | _ => false

/-- The operation belongs to a counter. -/
def counts (p : Performed) : Counter → Bool
  | .isolatesCreated => p.returned?.isSome
  | .isolatesReleased => p.released?.isSome
  | .isolatesExhausted => p.refused
  | .staleHandleUses => p.stale
  | .plansSucceeded => p.succeeded
  | .plansFailed => p.failed
  | .catalogCacheHits => false

end Performed

theorem Metrics.get_increment (m : Metrics) (k c : Counter) :
    (m.increment k).get c = m.get c+if k = c then 1 else 0 := by
  cases k <;> cases c <;> rfl

namespace Registry

/-- What the registry and its counters say after some operations have been performed on it. -/
structure Accounted (config : Config) (r : Registry) (run : List Performed) : Prop where
  created : r.metrics.isolatesCreated = (returned run).length
  released : r.metrics.isolatesReleased = (released run).length
  /-- What was created has been released or is live. -/
  balance : r.metrics.isolatesCreated = r.metrics.isolatesReleased+r.liveCount
  live : r.metrics.liveIsolates = r.liveCount
  exhausted : r.metrics.isolatesExhausted = run.countP Performed.refused
  stale : r.metrics.staleHandleUses = run.countP Performed.stale
  succeeded : r.metrics.plansSucceeded = run.countP Performed.succeeded
  failed : r.metrics.plansFailed = run.countP Performed.failed
  cacheHits : r.metrics.catalogCacheHits ≤ r.metrics.plansSucceeded+r.metrics.plansFailed
  cacheOff : config.cacheCatalogs = false → r.metrics.catalogCacheHits = 0
  /-- The release of an isolate logs how many requests it has served with success. -/
  release_logs : ∀ h, r.isLive h →
    ∀ op, op = .release h ∨ op = .guardRelease ⟨h⟩ ∨ op = .guardDrop ⟨h⟩ →
      (r.perform op).entries = [Event.isolateReleased.entry
        [("isolate",toString h.raw),("plans",toString (plansOn h run))]]

variable {config : Config} {r r' : Registry} {run : List Performed} {h : IsolateHandle} {s : Isolate}

/-- The counter of a served request, if it has one. -/
def outcomeCounter? (served : Served) : Option Counter :=
  match served.result with
  | .ok _ => some .plansSucceeded
  | .error (.failed _) => some .plansFailed
  | .error .panicked => none

theorem get_count (k c : Counter) :
    (r.count k).metrics.get c = r.metrics.get c+if k = c then 1 else 0 :=
  get_increment r.metrics k c

theorem get_countServed (served : Served) {c : Counter} (hc : c ≠ .catalogCacheHits) :
    (r.countServed served).metrics.get c =
      r.metrics.get c+if outcomeCounter? served = some c then 1 else 0 := by
  have hhit : (if served.cacheHit then r.count .catalogCacheHits else r).metrics.get c =
      r.metrics.get c := by
    split
    · rw [get_count,if_neg hc.symm,Nat.add_zero]
    · rfl
  unfold countServed outcomeCounter?
  cases served.result with
  | ok x => simp [get_count,hhit]
  | error stop => cases stop <;> simp [get_count,hhit]

theorem hits_countServed (served : Served) :
    (r.countServed served).metrics.get .catalogCacheHits =
      r.metrics.get .catalogCacheHits+if served.cacheHit then 1 else 0 := by
  have hhit : (if served.cacheHit then r.count .catalogCacheHits else r).metrics.get .catalogCacheHits =
      r.metrics.get .catalogCacheHits+if served.cacheHit then 1 else 0 := by
    split
    · rw [get_count,if_pos rfl]
    · rfl
  unfold countServed
  cases served.result with
  | ok x => simp [get_count,hhit]
  | error stop => cases stop <;> simp [get_count,hhit]

/-- A request on a live handle belongs to the counter of its outcome. -/
theorem counts_served (hs : r.isolate? h = some s) (fs : FileSystem) (request : PlanRequest)
    (entries : List LogEntry) (c : Counter) :
    (Performed.mk r (.planned h (s.serve fs request).result) r' entries).counts c ↔
      outcomeCounter? (s.serve fs request) = some c := by
  have hlive : r.isLive h = true := congrArg Option.isSome hs
  have hnot : ∀ n, (s.serve fs request).result ≠ .error (.failed (.stale n)) :=
    Isolate.serve_not_stale
  unfold outcomeCounter?
  revert hnot
  cases (s.serve fs request).result with
  | ok x =>
    intro _
    cases c <;> simp [Performed.counts,Performed.returned?,Performed.released?,Performed.refused,
      Performed.stale,Performed.succeeded,Performed.failed,hlive]
  | error stop =>
    intro hnot
    cases stop with
    | panicked =>
      cases c <;> simp [Performed.counts,Performed.returned?,Performed.released?,Performed.refused,
        Performed.stale,Performed.succeeded,Performed.failed]
    | failed e =>
      have hstale : (Performed.mk r (.planned h (.error (.failed e))) r' entries).stale = false := by
        cases e with
        | stale n => exact absurd rfl (hnot n)
        | _ => rfl
      cases c <;> simp [Performed.counts,Performed.returned?,Performed.released?,Performed.refused,
        Performed.succeeded,Performed.failed,hlive,hstale]

/-- A reply tells what the operation adds to each counter. -/
theorem Effect.get {reply : Reply} {entries : List LogEntry} (heffect : r.Effect reply r' entries)
    {c : Counter} (hc : c ≠ .catalogCacheHits) : r'.metrics.get c =
      r.metrics.get c+if (Performed.mk r reply r' entries).counts c then 1 else 0 := by
  cases heffect with
  | refused hfull =>
    rw [get_count]
    cases c <;> rfl
  | created hlt =>
    rw [get_count]
    cases c <;> rfl
  | planRefused h hnone =>
    have hlive : r.isLive h = false := congrArg Option.isSome hnone
    rw [get_count]
    cases c with
    | plansFailed => exact congrArg (r.metrics.get _+if · then 1 else 0) hlive.symm
    | _ => rfl
  | releaseRefused h hnone =>
    rw [get_count]
    cases c <;> rfl
  | planned h s fs request hs =>
    rw [get_countServed _ hc]
    simp only [counts_served hs]
    rfl
  | released h s hs =>
    rw [get_count]
    cases c <;> rfl

theorem get_perform (r : Registry) (op : Operation) {c : Counter} (hc : c ≠ .catalogCacheHits) :
    (r.perform op).registry.metrics.get c =
      r.metrics.get c+if (r.perform op).counts c then 1 else 0 := by
  conv_rhs => rw [perform_eq]
  exact (effect_perform r op).get hc

/-- Every counter but that of kept catalogs counts the operations that belong to it. -/
theorem get_after (config : Config) (ops : List Operation) {c : Counter}
    (hc : c ≠ .catalogCacheHits) : ((new config).after ops).metrics.get c =
      ((new config).run ops).countP (·.counts c) := by
  have hnew : (new config).metrics.get c = 0 := by cases c <;> rfl
  refine new_induction (P := fun r run => r.metrics.get c = run.countP (·.counts c))
    (fun r run op hrun => ?_) hnew ops
  rw [get_perform r op hc,hrun,List.countP_append,List.countP_singleton]

/-! ## Uses of kept catalogs -/

theorem hits_le_countServed {served : Served}
    (hpanicked : served.result = .error .panicked → served.cacheHit = false)
    (hle : r.metrics.catalogCacheHits ≤ r.metrics.plansSucceeded+r.metrics.plansFailed) :
    (r.countServed served).metrics.catalogCacheHits ≤
      (r.countServed served).metrics.plansSucceeded+(r.countServed served).metrics.plansFailed := by
  unfold countServed
  cases hresult : served.result with
  | ok x => split <;> simp only [count,increment] <;> omega
  | error stop =>
    cases stop with
    | failed e => split <;> simp only [count,increment] <;> omega
    | panicked =>
      rw [hpanicked hresult]
      exact hle

/-- A kept catalog is used at most once for a request that is served. -/
theorem hits_le_perform (op : Operation)
    (hle : r.metrics.catalogCacheHits ≤ r.metrics.plansSucceeded+r.metrics.plansFailed) :
    (r.perform op).registry.metrics.catalogCacheHits ≤
      (r.perform op).registry.metrics.plansSucceeded+(r.perform op).registry.metrics.plansFailed := by
  have heffect := effect_perform r op
  generalize (r.perform op).reply = reply,(r.perform op).registry = r',
    (r.perform op).entries = entries at heffect
  cases heffect with
  | planned h s fs request hs => exact hits_le_countServed Isolate.cacheHit_of_panicked hle
  | _ => exact hle

theorem hits_le_after (config : Config) (ops : List Operation) :
    ((new config).after ops).metrics.catalogCacheHits ≤
      ((new config).after ops).metrics.plansSucceeded+
        ((new config).after ops).metrics.plansFailed :=
  new_induction (P := fun r _ => r.metrics.catalogCacheHits ≤
      r.metrics.plansSucceeded+r.metrics.plansFailed)
    (fun _ _ op => hits_le_perform op) (Nat.le_refl 0) ops

/-- No kept catalog is used where none is kept. -/
theorem Tracks.hits_perform (ht : Tracks config r run) (hoff : config.cacheCatalogs = false)
    (op : Operation) :
    (r.perform op).registry.metrics.catalogCacheHits = r.metrics.catalogCacheHits := by
  have heffect := effect_perform r op
  generalize (r.perform op).reply = reply,(r.perform op).registry = r',
    (r.perform op).entries = entries at heffect
  cases heffect with
  | planned h s fs request hs =>
    have hmiss : (s.serve fs request).cacheHit = false := (ht.accounts hs).serve_cacheHit hoff
    refine (hits_countServed (s.serve fs request)).trans ?_
    rw [hmiss]
    rfl
  | _ => rfl

theorem hits_after (hoff : config.cacheCatalogs = false) (ops : List Operation) :
    ((new config).after ops).metrics.catalogCacheHits = 0 := by
  have hrun := new_induction
    (P := fun r run => Tracks config r run ∧ r.metrics.catalogCacheHits = 0)
    (fun r run op ⟨ht,hnone⟩ => ⟨ht.step op,(ht.hits_perform hoff op).trans hnone⟩)
    ⟨tracks_new config,rfl⟩ ops
  exact hrun.2

/-! ## All counters -/

theorem Tracks.entries_release (ht : Tracks config r run) (hlive : r.isLive h) :
    (r.release h).entries = [Event.isolateReleased.entry
      [("isolate",toString h.raw),("plans",toString (plansOn h run))]] := by
  obtain ⟨s,hs⟩ := Option.isSome_iff_exists.1 hlive
  simp only [release,hs,(ht.accounts hs).plansServed]

/-- Whatever is done with a registry, its counters account for it. -/
theorem counters_account (config : Config) (ops : List Operation) :
    Accounted config ((new config).after ops) ((new config).run ops) := by
  have ht := tracks config ops
  have hget : ∀ c, c ≠ .catalogCacheHits → ((new config).after ops).metrics.get c =
      ((new config).run ops).countP (·.counts c) := fun c hc => get_after config ops hc
  have hcreated : ((new config).after ops).metrics.isolatesCreated =
      (returned ((new config).run ops)).length :=
    (hget .isolatesCreated nofun).trans List.length_filterMap_eq_countP.symm
  have hreleased : ((new config).after ops).metrics.isolatesReleased =
      (released ((new config).run ops)).length :=
    (hget .isolatesReleased nofun).trans List.length_filterMap_eq_countP.symm
  have hbalance := ht.balance
  constructor
  case created => exact hcreated
  case released => exact hreleased
  case balance => omega
  case live =>
    rw [liveIsolates]
    omega
  case exhausted => exact hget .isolatesExhausted nofun
  case stale => exact hget .staleHandleUses nofun
  case succeeded => exact hget .plansSucceeded nofun
  case failed => exact hget .plansFailed nofun
  case cacheHits => exact hits_le_after config ops
  case cacheOff => exact fun hoff => hits_after hoff ops
  case release_logs =>
    rintro h hlive op (rfl|rfl|rfl)
    · exact ht.entries_release hlive
    · exact ht.entries_release hlive
    · exact ht.entries_release hlive

end Registry
end QueryPlan
