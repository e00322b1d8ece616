import QueryPlan.Proofs.Isolate.History

/-! # Handles are safe

No handle is used twice, so that a handle whose isolate has been released is refused from then on;
and what is refused changes nothing. -/
namespace QueryPlan
open History

namespace Registry

/-- What holds of a registry and its handles after some operations have been performed on it. -/
structure HandlesSafe (config : Config) (r : Registry) (run : List Performed) : Prop where
  /-- No more isolates are live than the limit allows. -/
  bounded : r.liveCount ≤ config.maxIsolates
  /-- Exactly at the limit no isolate is created, neither for a handle nor for a guard. -/
  exhausted : (∀ e, r.create.result = .error e ↔
      e = .exhausted config.maxIsolates ∧ r.liveCount = config.maxIsolates) ∧
    ∀ e, (IsolateGuard.acquire r).result = .error e ↔
      e = .exhausted config.maxIsolates ∧ r.liveCount = config.maxIsolates
  /-- Each handle returned is greater than all before it. -/
  increasing : (returned run).Pairwise fun h h' => h.raw < h'.raw
  /-- Handles are not zero, and count the isolates created. -/
  positive : ∀ h ∈ returned run, 0 < h.raw ∧ h.raw ≤ (returned run).length
  /-- Requests find their handle stale if it was never returned or has been released. -/
  plan_stale : ∀ h fs request n, (r.plan fs h request).result = .error (.failed (.stale n)) ↔
    n = h.raw ∧ (h ∉ returned run ∨ h ∈ released run)
  /-- So do releases. -/
  release_stale : ∀ h n, (r.release h).result = .error (.stale n) ↔
    n = h.raw ∧ (h ∉ returned run ∨ h ∈ released run)
  /-- A handle that has been released stays stale. -/
  forever : ∀ h ∈ released run, ∀ later, (r.after later).isLive h = false
  /-- What is refused or stale changes no isolate, and not the next handle. -/
  unchanged : ∀ op, (r.perform op).refused ∨ (r.perform op).stale →
    (r.perform op).registry.isolates = r.isolates ∧ (r.perform op).registry.nextId = r.nextId
  /-- A guard that is given back or dropped removes its isolate and no other. -/
  guard_removes : ∀ g op, op = .guardRelease g ∨ op = .guardDrop g →
    (r.perform op).registry.isolates = r.isolates.filter fun e => e.1 ≠ g.handle.raw
  /-- The isolate of a guard that is gone is not live, then and later. -/
  guard_gone : ∀ g op, op = .guardRelease g ∨ op = .guardDrop g → g.handle ∈ returned run →
    ∀ later, ((r.perform op).registry.after later).isLive g.handle = false

variable {config : Config} {r : Registry} {run : List Performed} {h : IsolateHandle}

theorem Tracks.create_eq_error (ht : Tracks config r run) (e : IsolateError) :
    r.create.result = .error e ↔
      e = .exhausted config.maxIsolates ∧ r.liveCount = config.maxIsolates := by
  have hbounded := ht.bounded
  unfold create
  dsimp only
  rw [ht.config_eq]
  split
  · rename_i hfull
    have hcount : r.liveCount = config.maxIsolates := Nat.le_antisymm hbounded hfull
    simp [hcount,eq_comm]
  · rename_i hfree
    have hcount : r.liveCount ≠ config.maxIsolates := fun heq => hfree (Nat.le_of_eq heq.symm)
    simp [hcount]

theorem acquire_eq_error (r : Registry) (e : IsolateError) :
    (IsolateGuard.acquire r).result = .error e ↔ r.create.result = .error e := by
  unfold IsolateGuard.acquire
  dsimp only
  cases r.create.result with
  | ok h => simp [Except.map]
  | error e' => simp [Except.map]

theorem Tracks.plan_eq_stale (ht : Tracks config r run) (fs : FileSystem) (request : PlanRequest)
    (n : Nat) : (r.plan fs h request).result = .error (.failed (.stale n)) ↔
      n = h.raw ∧ (h ∉ returned run ∨ h ∈ released run) := by
  rw [← ht.isolate?_eq_none]
  unfold plan
  cases hs : r.isolate? h with
  | none => simp [refuse,Except.mapError,eq_comm]
  | some s => simpa using Isolate.serve_not_stale n

theorem Tracks.release_eq_stale (ht : Tracks config r run) (n : Nat) :
    (r.release h).result = .error (.stale n) ↔
      n = h.raw ∧ (h ∉ returned run ∨ h ∈ released run) := by
  rw [← ht.isolate?_eq_none]
  unfold release
  cases hs : r.isolate? h with
  | none => simp [refuse,eq_comm]
  | some s => simp

theorem Tracks.increasing (ht : Tracks config r run) :
    (returned run).Pairwise fun h h' => h.raw < h'.raw := by
  rw [← List.pairwise_map (R := (· < ·)),ht.issued]
  exact List.pairwise_lt_range'

theorem Tracks.raw_le (ht : Tracks config r run) (hh : h ∈ returned run) :
    h.raw ≤ (returned run).length := by
  have hlength : (returned run).length = r.nextId-1 := by
    rw [← List.length_map IsolateHandle.raw,ht.issued,List.length_range']
  have hlt := (ht.lt_nextId hh).2
  omega

theorem isolates_of_refused (r : Registry) (op : Operation)
    (hrefused : (r.perform op).refused ∨ (r.perform op).stale) :
    (r.perform op).registry.isolates = r.isolates ∧ (r.perform op).registry.nextId = r.nextId := by
  have heffect := effect_perform r op
  generalize r.perform op = p at heffect hrefused
  obtain ⟨before,reply,registry,entries⟩ := p
  cases heffect with
  | refused hfull => exact ⟨rfl,rfl⟩
  | planRefused h hnone => exact ⟨rfl,rfl⟩
  | releaseRefused h hnone => exact ⟨rfl,rfl⟩
  | created hlt => simp [Performed.refused,Performed.stale] at hrefused
  | released h s hs => simp [Performed.refused,Performed.stale] at hrefused
  | planned h s fs request hs =>
    have hserve : ∀ n, (s.serve fs request).result ≠ .error (.failed (.stale n)) :=
      Isolate.serve_not_stale
    simp only [Performed.refused,Performed.stale] at hrefused
    revert hserve hrefused
    cases (s.serve fs request).result with
    | ok x => simp
    | error stop =>
      cases stop with
      | panicked => simp
      | failed e => cases e <;> simp

/-- A release takes the isolate of its handle out, if there is one, and leaves the others. -/
theorem isolates_release (r : Registry) (h : IsolateHandle) :
    (r.release h).registry.isolates = r.isolates.filter fun e => e.1 ≠ h.raw := by
  unfold release
  cases hs : r.isolate? h with
  | none =>
    have hkeys := isolate?_eq_none.1 hs
    refine (List.filter_eq_self.2 fun e he => ?_).symm
    have hne : e.1 ≠ h.raw := fun heq => hkeys (heq ▸ List.mem_map_of_mem he)
    simpa using hne
  | some s =>
    refine List.filter_congr fun e _ => ?_
    rw [bne,Bool.not_eq_eq_eq_not,Bool.eq_iff_iff]
    simp

theorem isolates_guard (r : Registry) {g : IsolateGuard} {op : Operation}
    (hop : op = .guardRelease g ∨ op = .guardDrop g) :
    (r.perform op).registry.isolates = r.isolates.filter fun e => e.1 ≠ g.handle.raw := by
  rcases hop with rfl|rfl
  · exact isolates_release r g.handle
  · exact isolates_release r g.handle

/-- What is tracked so far stays tracked. -/
theorem Tracks.after (ht : Tracks config r run) (later : List Operation) :
    Tracks config (r.after later) (run ++ r.run later) :=
  after_induction (fun _ _ op ht => ht.step op) ht later

theorem Tracks.isLive_of_released (ht : Tracks config r run) (hh : h ∈ released run) :
    r.isLive h = false := by
  rw [isLive,ht.isolate?_eq_none.2 (.inr hh)]
  rfl

theorem Tracks.forever (ht : Tracks config r run) (hh : h ∈ released run) (later : List Operation) :
    (r.after later).isLive h = false := by
  refine (ht.after later).isLive_of_released ?_
  rw [released,List.filterMap_append]
  exact List.mem_append_left _ hh

/-- A handle that was returned has been released once its guard is gone. -/
theorem Tracks.released_guard (ht : Tracks config r run) {g : IsolateGuard} {op : Operation}
    (hop : op = .guardRelease g ∨ op = .guardDrop g) (hg : g.handle ∈ returned run) :
    g.handle ∈ released (run ++ [r.perform op]) := by
  have hstep := ht.step op
  have hnone : (r.perform op).registry.isolate? g.handle = none := by
    rw [Registry.isolate?_eq_none,keys,isolates_guard r hop,List.mem_map]
    rintro ⟨e,he,heq⟩
    simpa [heq] using (List.mem_filter.1 he).2
  rcases hstep.isolate?_eq_none.1 hnone with hnew|hreleased
  · exact absurd (by rw [returned_snoc]; exact List.mem_append_left _ hg) hnew
  · exact hreleased

/-- Whatever is done with a registry, its handles are safe. -/
theorem handles_safe (config : Config) (ops : List Operation) :
    HandlesSafe config ((new config).after ops) ((new config).run ops) := by
  have ht := tracks config ops
  constructor
  case bounded => exact ht.bounded
  case exhausted =>
    refine ⟨ht.create_eq_error,fun e => ?_⟩
    rw [acquire_eq_error]
    exact ht.create_eq_error e
  case increasing => exact ht.increasing
  case positive => exact fun h hh => ⟨(ht.lt_nextId hh).1,ht.raw_le hh⟩
  case plan_stale => exact fun h fs request n => ht.plan_eq_stale fs request n
  case release_stale => exact fun h n => ht.release_eq_stale n
  case forever => exact fun h hh later => ht.forever hh later
  case unchanged => exact fun op hop => isolates_of_refused _ op hop
  case guard_removes => exact fun g op hop => isolates_guard _ hop
  case guard_gone => exact fun g op hop hg later => (ht.step op).forever (ht.released_guard hop hg) later

end Registry
end QueryPlan
