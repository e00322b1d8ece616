import QueryPlan.Proofs.Except
import QueryPlan.Proofs.Isolate.Operations
import QueryPlan.Proofs.Isolate.Serving
import Mathlib.Data.List.Nodup

/-! # What a registry has done tells its state

After any operations on a new registry, the handles that were returned and released say which
isolates are live, and the requests that were served say what these have counted. -/
namespace QueryPlan
open History

/-- An isolate is as its registry was configured, and has counted what it served. -/
structure Isolate.Accounts (config : Config) (served : Nat) (s : Isolate) : Prop where
  cacheCatalogs : s.cacheCatalogs = config.cacheCatalogs
  catalogs : config.cacheCatalogs = false → s.catalogs = []
  plansServed : s.plansServed = served

namespace Isolate
variable {config : Config} {s : Isolate} {fs : FileSystem} {request : PlanRequest} {served : Nat}

theorem Accounts.work (h : s.Accounts config served) :
    (s.work fs request).isolate.Accounts config served := by
  have hremember : ∀ c, (s.remember c).Accounts config served := by
    intro c
    unfold remember
    split
    · rename_i hcache
      refine ⟨h.cacheCatalogs,fun hoff => ?_,h.plansServed⟩
      rw [h.cacheCatalogs,hoff] at hcache
      cases hcache
    · exact h
  unfold Isolate.work
  split
  · exact h
  · split
    · exact h
    · dsimp only
      split
      · exact h
      · exact hremember _

theorem Accounts.serve_ok (h : s.Accounts config served) {x : PlanResponse}
    (hx : (s.serve fs request).result = .ok x) :
    (s.serve fs request).isolate.Accounts config (served+1) := by
  have hwork : (s.work fs request).isolate.Accounts config served := h.work
  rw [serve_result] at hx
  simp only [serve,hx]
  exact ⟨hwork.cacheCatalogs,hwork.catalogs,congrArg (·+1) hwork.plansServed⟩

theorem Accounts.serve_error (h : s.Accounts config served) {stop : Stop IsolateError}
    (hstop : (s.serve fs request).result = .error stop) :
    (s.serve fs request).isolate.Accounts config served := by
  have hwork : (s.work fs request).isolate.Accounts config served := h.work
  rw [serve_result] at hstop
  cases stop <;> simp only [serve,hstop] <;> exact hwork

/-- An isolate that keeps no catalogs uses none that it kept. -/
theorem Accounts.serve_cacheHit (h : s.Accounts config served) (hoff : config.cacheCatalogs = false) :
    (s.serve fs request).cacheHit = false := by
  have hmiss : ∀ path c, s.catalog fs path ≠ .ok (c,true) := by
    intro path c hc
    unfold catalog cached? at hc
    rw [h.catalogs hoff] at hc
    obtain ⟨d,-,hd⟩ := map_eq_ok_iff.1 hc
    cases hd
  have hwork : (s.work fs request).cacheHit = false := by
    unfold Isolate.work
    split
    · rfl
    · split
      · rfl
      · rename_i c hit hc
        dsimp only
        cases hit with
        | false => rfl
        | true => exact absurd hc (hmiss _ c)
  unfold serve
  dsimp only
  split <;> exact hwork

/-- A request that panics uses no catalog that was kept. -/
theorem cacheHit_of_panicked (h : (s.serve fs request).result = .error .panicked) :
    (s.serve fs request).cacheHit = false := by
  cases serve_result_eq_iff.1 h with
  | panicked hr hcatalog => simp only [serve,work,hr,hcatalog,Stop.map]

/-- Serving never says that a handle is stale. -/
theorem serve_not_stale (n : Nat) : (s.serve fs request).result ≠ .error (.failed (.stale n)) := by
  intro h
  have hserves := serve_result_eq_iff.1 h
  cases hserves

end Isolate

namespace Registry
variable {config : Config} {r r' : Registry} {run : List Performed} {h : IsolateHandle} {s : Isolate}

@[simp] theorem isolates_countServed (served : Served) :
    (r.countServed served).isolates = r.isolates := by
  unfold countServed
  split <;> split <;> rfl

@[simp] theorem nextId_countServed (served : Served) : (r.countServed served).nextId = r.nextId := by
  unfold countServed
  split <;> split <;> rfl

@[simp] theorem config_countServed (served : Served) : (r.countServed served).config = r.config := by
  unfold countServed
  split <;> split <;> rfl

theorem length_keys (r : Registry) : r.keys.length = r.liveCount := by
  simp [keys,liveCount]

theorem keys_set (r : Registry) (h : IsolateHandle) (s : Isolate) : (r.set h s).keys = r.keys := by
  simp only [keys,set,List.map_map]
  refine List.map_congr_left fun e _ => ?_
  rw [Function.comp_apply]
  split <;> rfl

theorem keys_erase (r : Registry) (h : IsolateHandle) :
    (r.erase h).keys = r.keys.filter (· != h.raw) := by
  simp only [keys,erase,List.filter_map]
  rfl

theorem mem_isolates (hs : r.isolate? h = some s) : (h.raw,s) ∈ r.isolates := by
  obtain ⟨before,rest,heq,-⟩ := List.lookup_eq_some_iff.1 hs
  rw [heq]
  simp

theorem isolate?_eq_none : r.isolate? h = none ↔ h.raw ∉ r.keys := by
  rw [isolate?,List.lookup_eq_none_iff,keys,List.mem_map]
  constructor
  · rintro hnone ⟨e,he,heq⟩
    simpa [heq] using hnone e he
  · intro hnone e he
    have hne : h.raw ≠ e.1 := fun heq => hnone ⟨e,he,heq.symm⟩
    simpa using hne

/-- What has happened so far tells the state of the registry. -/
structure Tracks (config : Config) (r : Registry) (run : List Performed) : Prop where
  config_eq : r.config = config
  bounded : r.liveCount ≤ config.maxIsolates
  nextId_pos : 0 < r.nextId
  issued : (returned run).map IsolateHandle.raw = List.range' 1 (r.nextId-1)
  known : released run ⊆ returned run
  live : r.keys = ((returned run).filter (· ∉ released run)).map IsolateHandle.raw
  balance : r.liveCount+(released run).length = (returned run).length
  served : ∀ h, h ∉ returned run → plansOn h run = 0
  isolates : ∀ e ∈ r.isolates, e.2.Accounts config (plansOn ⟨e.1⟩ run)

theorem tracks_new (config : Config) : Tracks config (new config) [] where
  config_eq := rfl
  bounded := Nat.zero_le _
  nextId_pos := Nat.one_pos
  issued := rfl
  known := List.Subset.refl _
  live := rfl
  balance := rfl
  served _ _ := rfl
  isolates e he := by cases he

/-! ## What is tracked -/

theorem Tracks.lt_nextId (ht : Tracks config r run) (hh : h ∈ returned run) :
    0 < h.raw ∧ h.raw < r.nextId := by
  have hmem : h.raw ∈ (returned run).map IsolateHandle.raw := List.mem_map_of_mem hh
  rw [ht.issued,List.mem_range'_1] at hmem
  have hpos := ht.nextId_pos
  omega

theorem Tracks.nodup_returned (ht : Tracks config r run) : (returned run).Nodup := by
  refine List.Nodup.of_map IsolateHandle.raw ?_
  rw [ht.issued]
  exact List.nodup_range'

theorem Tracks.nodup_keys (ht : Tracks config r run) : r.keys.Nodup := by
  rw [ht.live]
  refine (ht.nodup_returned.filter _).map fun h h' heq => ?_
  exact congrArg IsolateHandle.mk heq

/-- The live handles are those that were returned and not released. -/
theorem Tracks.mem_keys (ht : Tracks config r run) :
    h.raw ∈ r.keys ↔ h ∈ returned run ∧ h ∉ released run := by
  rw [ht.live,List.mem_map]
  constructor
  · rintro ⟨h',hmem,heq⟩
    obtain rfl : h' = h := congrArg IsolateHandle.mk heq
    simpa using hmem
  · intro hmem
    exact ⟨h,by simpa using hmem,rfl⟩

theorem Tracks.isolate?_eq_none (ht : Tracks config r run) :
    r.isolate? h = none ↔ h ∉ returned run ∨ h ∈ released run := by
  rw [Registry.isolate?_eq_none,ht.mem_keys]
  tauto

theorem Tracks.mem_of_isolate? (ht : Tracks config r run) (hs : r.isolate? h = some s) :
    h ∈ returned run ∧ h ∉ released run := by
  rw [← ht.mem_keys]
  by_contra hnone
  rw [Registry.isolate?_eq_none.2 hnone] at hs
  cases hs

theorem Tracks.accounts (ht : Tracks config r run) (hs : r.isolate? h = some s) :
    s.Accounts config (plansOn h run) := ht.isolates _ (mem_isolates hs)

/-! ## Steps -/

/-- An operation that leaves all isolates as they are, and says so. -/
theorem Tracks.unchanged (ht : Tracks config r run) {p : Performed} (hconfig : r'.config = r.config)
    (hisolates : r'.isolates = r.isolates) (hnext : r'.nextId = r.nextId)
    (hreturned : p.returned? = none) (hreleased : p.released? = none)
    (hserved : ∀ h, p.succeedsOn h = false) : Tracks config r' (run ++ [p]) := by
  have hplans : ∀ h, plansOn h (run ++ [p]) = plansOn h run := fun h => by
    rw [plansOn_snoc,hserved h]
    rfl
  have hkeys : r'.keys = r.keys := by rw [keys,keys,hisolates]
  have hcount : r'.liveCount = r.liveCount := by rw [liveCount,liveCount,hisolates]
  constructor
  all_goals simp only [returned_snoc,released_snoc,hreturned,hreleased,Option.toList_none,
    List.append_nil,hconfig,hisolates,hnext,hplans,hkeys,hcount]
  · exact ht.config_eq
  · exact ht.bounded
  · exact ht.nextId_pos
  · exact ht.issued
  · exact ht.known
  · exact ht.live
  · exact ht.balance
  · exact ht.served
  · exact ht.isolates

theorem Tracks.created (ht : Tracks config r run) (hlt : r.liveCount < r.config.maxIsolates)
    {p : Performed} (hp : p.reply = .created (.ok ⟨r.nextId⟩)) :
    Tracks config ({ r with
        isolates := r.isolates ++ [(r.nextId,Isolate.new r.nextId r.config)]
        nextId := r.nextId+1 }.count .isolatesCreated) (run ++ [p]) := by
  have hpos := ht.nextId_pos
  have hreturned : returned (run ++ [p]) = returned run ++ [⟨r.nextId⟩] := by
    rw [returned_snoc,Performed.returned?,hp]
    rfl
  have hreleased : released (run ++ [p]) = released run := by
    rw [released_snoc,Performed.released?,hp]
    exact List.append_nil _
  have hplans : ∀ h, plansOn h (run ++ [p]) = plansOn h run := fun h => by
    rw [plansOn_snoc,Performed.succeedsOn,hp]
    rfl
  have hnew : (⟨r.nextId⟩ : IsolateHandle) ∉ returned run := fun hmem =>
    Nat.lt_irrefl _ (ht.lt_nextId hmem).2
  have hnew' : (⟨r.nextId⟩ : IsolateHandle) ∉ released run := fun hmem => hnew (ht.known hmem)
  constructor
  case config_eq => exact ht.config_eq
  case bounded =>
    rw [← ht.config_eq]
    change (r.isolates ++ [_]).length ≤ _
    rw [List.length_append]
    exact hlt
  case nextId_pos => exact Nat.succ_pos _
  case issued =>
    have hrange : List.range' 1 r.nextId = List.range' 1 (r.nextId-1) ++ [r.nextId] := by
      conv_lhs => rw [show r.nextId = r.nextId-1+1 by omega]
      rw [List.range'_1_concat,show 1+(r.nextId-1) = r.nextId by omega]
    rw [hreturned,List.map_append,ht.issued]
    exact hrange.symm
  case known =>
    rw [hreturned,hreleased]
    exact fun h hh => List.mem_append_left _ (ht.known hh)
  case live =>
    rw [hreturned,hreleased,List.filter_append,List.map_append,← ht.live]
    simp [keys,count,hnew']
  case balance =>
    have hbalance := ht.balance
    rw [hreturned,hreleased,List.length_append,← hbalance]
    simp [count,liveCount]
    omega
  case served =>
    intro h hh
    rw [hreturned] at hh
    rw [hplans]
    exact ht.served h fun hmem => hh (List.mem_append_left _ hmem)
  case isolates =>
    intro e he
    rw [hplans]
    rcases List.mem_append.1 he with he|he
    · exact ht.isolates e he
    · obtain rfl := List.mem_singleton.1 he
      refine ⟨?_,fun _ => rfl,(ht.served _ hnew).symm⟩
      rw [← ht.config_eq]
      rfl

theorem Tracks.planned (ht : Tracks config r run) (hs : r.isolate? h = some s) {fs : FileSystem}
    {request : PlanRequest} {p : Performed}
    (hp : p.reply = .planned h (s.serve fs request).result) :
    Tracks config ((r.set h (s.serve fs request).isolate).countServed (s.serve fs request))
      (run ++ [p]) := by
  have hreturned : returned (run ++ [p]) = returned run := by
    rw [returned_snoc,Performed.returned?,hp]
    exact List.append_nil _
  have hreleased : released (run ++ [p]) = released run := by
    rw [released_snoc,Performed.released?,hp]
    exact List.append_nil _
  have hother : ∀ h', h' ≠ h → plansOn h' (run ++ [p]) = plansOn h' run := by
    intro h' hne
    rw [plansOn_snoc,Performed.succeedsOn,hp]
    cases (s.serve fs request).result with
    | ok x => simp [hne.symm]
    | error e => rfl
  have hserved : (s.serve fs request).isolate.Accounts config (plansOn h (run ++ [p])) := by
    rw [plansOn_snoc,Performed.succeedsOn,hp]
    cases hx : (s.serve fs request).result with
    | ok x => simpa using (ht.accounts hs).serve_ok hx
    | error e => exact (ht.accounts hs).serve_error hx
  have hcount : ∀ served s', ((r.set h s').countServed served).liveCount = r.liveCount := by
    intro served s'
    rw [liveCount,isolates_countServed]
    simp [set,liveCount]
  have hkeys : ∀ served s', ((r.set h s').countServed served).keys = r.keys := by
    intro served s'
    rw [← keys_set r h s',keys,keys,isolates_countServed]
  constructor
  all_goals simp only [hreturned,hreleased,hcount,hkeys,config_countServed,nextId_countServed,
    isolates_countServed]
  case config_eq => exact ht.config_eq
  case bounded => exact ht.bounded
  case nextId_pos => exact ht.nextId_pos
  case issued => exact ht.issued
  case known => exact ht.known
  case live => exact ht.live
  case balance => exact ht.balance
  case served =>
    intro h' hh'
    rw [hother h' fun heq => hh' (heq ▸ (ht.mem_of_isolate? hs).1)]
    exact ht.served h' hh'
  case isolates =>
    intro e he
    obtain ⟨e',he',rfl⟩ := List.mem_map.1 he
    by_cases hkey : e'.1 = h.raw
    · have hh : (⟨e'.1⟩ : IsolateHandle) = h := congrArg IsolateHandle.mk hkey
      rw [if_pos (by simpa using hkey),hh]
      exact hserved
    · have hh : (⟨e'.1⟩ : IsolateHandle) ≠ h := fun heq => hkey (congrArg IsolateHandle.raw heq)
      rw [if_neg (by simpa using hkey),hother _ hh]
      exact ht.isolates e' he'

theorem Tracks.erased (ht : Tracks config r run) (hs : r.isolate? h = some s) {p : Performed}
    (hp : p.reply = .released h (.ok ())) :
    Tracks config ((r.erase h).count .isolatesReleased) (run ++ [p]) := by
  have hreturned : returned (run ++ [p]) = returned run := by
    rw [returned_snoc,Performed.returned?,hp]
    exact List.append_nil _
  have hreleased : released (run ++ [p]) = released run ++ [h] := by
    rw [released_snoc,Performed.released?,hp]
    rfl
  have hplans : ∀ h, plansOn h (run ++ [p]) = plansOn h run := fun h => by
    rw [plansOn_snoc,Performed.succeedsOn,hp]
    rfl
  obtain ⟨hknown,hlive⟩ := ht.mem_of_isolate? hs
  have hkey : h.raw ∈ r.keys := ht.mem_keys.2 ⟨hknown,hlive⟩
  have hcount : (r.erase h).liveCount+1 = r.liveCount := by
    have hpos := List.length_pos_of_mem hkey
    rw [← length_keys,← length_keys,keys_erase,← ht.nodup_keys.erase_eq_filter,
      List.length_erase_of_mem hkey]
    omega
  constructor
  case config_eq => exact ht.config_eq
  case bounded =>
    have hbounded := ht.bounded
    change (r.erase h).liveCount ≤ _
    omega
  case nextId_pos => exact ht.nextId_pos
  case issued =>
    rw [hreturned]
    exact ht.issued
  case known =>
    rw [hreturned,hreleased]
    exact List.append_subset.2 ⟨ht.known,by simpa using hknown⟩
  case live =>
    rw [hreturned,hreleased]
    change (r.erase h).keys = _
    rw [keys_erase,ht.live,List.filter_map,List.filter_filter]
    refine congrArg (List.map _) (List.filter_congr fun h' _ => ?_)
    have hraw : (h'.raw != h.raw) = !decide (h' = h) := by
      by_cases heq : h' = h
      · simp [heq]
      · have hne : h'.raw ≠ h.raw := fun he => heq (congrArg IsolateHandle.mk he)
        simp [heq,hne]
    simp [hraw,and_comm]
  case balance =>
    have hbalance := ht.balance
    rw [hreturned,hreleased,List.length_append,List.length_singleton]
    change (r.erase h).liveCount+_ = _
    omega
  case served =>
    intro h' hh'
    rw [hreturned] at hh'
    rw [hplans]
    exact ht.served h' hh'
  case isolates =>
    intro e he
    rw [hplans]
    exact ht.isolates e (List.mem_filter.1 he).1

/-- One more operation is tracked. -/
theorem Tracks.step (ht : Tracks config r run) (op : Operation) :
    Tracks config (r.perform op).registry (run ++ [r.perform op]) := by
  have heffect := effect_perform r op
  generalize hp : r.perform op = p at heffect
  obtain ⟨before,reply,registry,entries⟩ := p
  cases heffect with
  | refused hfull => exact ht.unchanged rfl rfl rfl rfl rfl fun _ => rfl
  | created hlt => exact ht.created hlt rfl
  | planRefused h hnone => exact ht.unchanged rfl rfl rfl rfl rfl fun _ => rfl
  | releaseRefused h hnone => exact ht.unchanged rfl rfl rfl rfl rfl fun _ => rfl
  | planned h s fs request hs => exact ht.planned hs rfl
  | released h s hs => exact ht.erased hs rfl

/-- Whatever is done with a new registry is tracked. -/
theorem tracks (config : Config) (ops : List Operation) :
    Tracks config ((new config).after ops) ((new config).run ops) :=
  new_induction (fun _ _ op ht => ht.step op) (tracks_new config) ops

end Registry
end QueryPlan
