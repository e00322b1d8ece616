import QueryPlan.Isolate.Registry

/-! # Operations on a registry

Operations on a registry and on guards are performed one after the other, in any order and with any
handles. Each of them has one of six effects. -/
namespace QueryPlan

/-- What a program does with a registry, or with a guard that owns an isolate of it. -/
inductive Operation where
  | create
  | plan (h : IsolateHandle) (fs : FileSystem) (request : PlanRequest)
  | release (h : IsolateHandle)
  | acquire
  | guardPlan (g : IsolateGuard) (fs : FileSystem) (request : PlanRequest)
  | guardRelease (g : IsolateGuard)
  | guardDrop (g : IsolateGuard)

/-- What the registry says to an operation. A guard that is dropped keeps it to itself. -/
inductive Reply where
  | created (result : Except IsolateError IsolateHandle)
  | planned (h : IsolateHandle) (result : Except (Stop IsolateError) PlanResponse)
  | released (h : IsolateHandle) (result : Except IsolateError Unit)

/-- An operation that has been performed, with the registry as it was before and as it is after. -/
structure Performed where
  before : Registry
  reply : Reply
  registry : Registry
  entries : List LogEntry

namespace Registry

def perform (r : Registry) : Operation → Performed
  | .create =>
    let done := r.create
    ⟨r,.created done.result,done.registry,done.entries⟩
  | .plan h fs request =>
    let done := r.plan fs h request
    ⟨r,.planned h done.result,done.registry,done.entries⟩
  | .release h =>
    let done := r.release h
    ⟨r,.released h done.result,done.registry,done.entries⟩
  | .acquire =>
    let done := IsolateGuard.acquire r
    ⟨r,.created (done.result.map IsolateGuard.handle),done.registry,done.entries⟩
  | .guardPlan g fs request =>
    let done := g.plan r fs request
    ⟨r,.planned g.handle done.result,done.registry,done.entries⟩
  | .guardRelease g =>
    let done := g.release r
    ⟨r,.released g.handle done.result,done.registry,done.entries⟩
  | .guardDrop g =>
    let (registry,entries) := g.drop r
    ⟨r,.released g.handle (r.release g.handle).result,registry,entries⟩

/-- The registry after some operations. -/
def after (r : Registry) (ops : List Operation) : Registry :=
  ops.foldl (fun r op => (r.perform op).registry) r

/-- The operations as they are performed one after the other. -/
def run (r : Registry) : List Operation → List Performed
  | [] => []
  | op :: ops => r.perform op :: (r.perform op).registry.run ops

/-- What holds of a registry and its history, and goes on to hold with each operation, holds after
any operations. -/
theorem after_induction {P : Registry → List Performed → Prop}
    (hstep : ∀ r run op, P r run → P (r.perform op).registry (run ++ [r.perform op]))
    {r : Registry} {run : List Performed} (h : P r run) (ops : List Operation) :
    P (r.after ops) (run ++ r.run ops) := by
  induction ops generalizing r run with
  | nil =>
    rw [Registry.run,List.append_nil]
    exact h
  | cons op ops ih =>
    have hrest := ih (hstep r run op h)
    rw [List.append_assoc] at hrest
    exact hrest

theorem new_induction {P : Registry → List Performed → Prop}
    (hstep : ∀ r run op, P r run → P (r.perform op).registry (run ++ [r.perform op]))
    {config : Config} (h : P (new config) []) (ops : List Operation) :
    P ((new config).after ops) ((new config).run ops) :=
  after_induction hstep h ops

/-- The handle names a live isolate. -/
def isLive (r : Registry) (h : IsolateHandle) : Bool := (r.isolate? h).isSome

def keys (r : Registry) : List Nat := r.isolates.map Prod.fst

/-- All that an operation can do to a registry. -/
inductive Effect (r : Registry) : Reply → Registry → List LogEntry → Prop
  | refused : r.config.maxIsolates ≤ r.liveCount →
    Effect r (.created (.error (.exhausted r.config.maxIsolates))) (r.count .isolatesExhausted)
      [Event.isolateExhausted.entry [("limit",toString r.config.maxIsolates)]]
  | created : r.liveCount < r.config.maxIsolates →
    Effect r (.created (.ok ⟨r.nextId⟩))
      ({ r with
        isolates := r.isolates ++ [(r.nextId,Isolate.new r.nextId r.config)]
        nextId := r.nextId+1 }.count .isolatesCreated)
      [Event.isolateCreated.entry [("isolate",toString r.nextId)]]
  | planRefused (h : IsolateHandle) : r.isolate? h = none →
    Effect r (.planned h (.error (.failed (.stale h.raw)))) (r.count .staleHandleUses)
      [Event.isolateStale.entry [("isolate",toString h.raw)]]
  | releaseRefused (h : IsolateHandle) : r.isolate? h = none →
    Effect r (.released h (.error (.stale h.raw))) (r.count .staleHandleUses)
      [Event.isolateStale.entry [("isolate",toString h.raw)]]
  | planned (h : IsolateHandle) (s : Isolate) (fs : FileSystem) (request : PlanRequest) :
    r.isolate? h = some s →
    Effect r (.planned h (s.serve fs request).result)
      ((r.set h (s.serve fs request).isolate).countServed (s.serve fs request))
      (s.serve fs request).entries
  | released (h : IsolateHandle) (s : Isolate) : r.isolate? h = some s →
    Effect r (.released h (.ok ())) ((r.erase h).count .isolatesReleased)
      [Event.isolateReleased.entry [("isolate",toString h.raw),("plans",toString s.plansServed)]]

variable {r : Registry}

theorem effect_create : r.Effect (.created r.create.result) r.create.registry r.create.entries := by
  unfold create
  dsimp only
  split
  · rename_i h
    exact .refused h
  · rename_i h
    exact .created (Nat.lt_of_not_le h)

theorem effect_plan (h : IsolateHandle) (fs : FileSystem) (request : PlanRequest) :
    r.Effect (.planned h (r.plan fs h request).result) (r.plan fs h request).registry
      (r.plan fs h request).entries := by
  unfold plan
  split
  · rename_i hnone
    exact .planRefused h hnone
  · rename_i s hs
    exact .planned h s fs request hs

theorem effect_release (h : IsolateHandle) :
    r.Effect (.released h (r.release h).result) (r.release h).registry (r.release h).entries := by
  unfold release
  split
  · rename_i hnone
    exact .releaseRefused h hnone
  · rename_i s hs
    exact .released h s hs

/-- Guards do what their registry does. -/
theorem effect_perform (r : Registry) (op : Operation) :
    r.Effect (r.perform op).reply (r.perform op).registry (r.perform op).entries := by
  cases op with
  | create => exact effect_create
  | plan h fs request => exact effect_plan h fs request
  | release h => exact effect_release h
  | acquire =>
    have hresult : (r.create.result.map IsolateGuard.mk).map IsolateGuard.handle = r.create.result := by
      cases r.create.result <;> rfl
    have heffect : r.Effect (.created r.create.result) _ _ := effect_create
    rw [← hresult] at heffect
    exact heffect
  | guardPlan g fs request => exact effect_plan g.handle fs request
  | guardRelease g => exact effect_release g.handle
  | guardDrop g => exact effect_release g.handle

theorem perform_eq (r : Registry) (op : Operation) : r.perform op =
    ⟨r,(r.perform op).reply,(r.perform op).registry,(r.perform op).entries⟩ := by
  cases op <;> rfl

end Registry

/-! ## What a run has done -/

namespace Performed

/-- The handle that an operation returned. -/
def returned? (p : Performed) : Option IsolateHandle :=
  match p.reply with
  | .created (.ok h) => some h
  | _ => none

/-- The handle that an operation released. -/
def released? (p : Performed) : Option IsolateHandle :=
  match p.reply with
  | .released h (.ok ()) => some h
  | _ => none

/-- An isolate was asked for and refused. -/
def refused (p : Performed) : Bool :=
  match p.reply with
  | .created (.error _) => true
  | _ => false

/-- A request or a release was refused because its handle is stale. -/
def stale (p : Performed) : Bool :=
  match p.reply with
  | .planned _ (.error (.failed (.stale _))) | .released _ (.error (.stale _)) => true
  | _ => false

/-- A request was served on the handle with success. -/
def succeedsOn (h : IsolateHandle) (p : Performed) : Bool :=
  match p.reply with
  | .planned h' (.ok _) => h' == h
  | _ => false

end Performed

namespace History
variable {run : List Performed} {p : Performed} {h : IsolateHandle}

/-- The handles that a run returned, in order. -/
def returned (run : List Performed) : List IsolateHandle := run.filterMap Performed.returned?

/-- The handles that a run released, in order. -/
def released (run : List Performed) : List IsolateHandle := run.filterMap Performed.released?

/-- How many requests were served on a handle with success. -/
def plansOn (h : IsolateHandle) (run : List Performed) : Nat := run.countP (Performed.succeedsOn h)

theorem returned_snoc : returned (run ++ [p]) = returned run ++ p.returned?.toList := by
  rw [returned,List.filterMap_append]
  cases hp : p.returned? <;> simp [returned,hp]

theorem released_snoc : released (run ++ [p]) = released run ++ p.released?.toList := by
  rw [released,List.filterMap_append]
  cases hp : p.released? <;> simp [released,hp]

theorem plansOn_snoc : plansOn h (run ++ [p]) = plansOn h run+if p.succeedsOn h then 1 else 0 := by
  rw [plansOn,List.countP_append,List.countP_singleton,plansOn]

end History

end QueryPlan
