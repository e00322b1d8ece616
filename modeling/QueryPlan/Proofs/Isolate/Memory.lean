import QueryPlan.Proofs.Binding.Detached
import QueryPlan.Proofs.Catalog.Lookup
import QueryPlan.Proofs.Catalog.Reread
import QueryPlan.Proofs.Isolate.Serving
import QueryPlan.Proofs.Rewrite.Detached

/-! # Isolates have no memory that shows

All that an isolate keeps from one request to the next are catalogs, each as its directory gave it
under one spelling of its path. A catalog read again under another spelling differs in where its
tables are, and that is in no answer. So the memory shows only where files have changed since, or
where a path is spelled out at too great a length to lead anywhere. -/
namespace QueryPlan

theorem Catalog.plan_detached (c : Catalog) (limit : Nat) (text : String) :
    (c.detached.plan limit defaultRules text).1 =
      (c.plan limit defaultRules text).1.map Plan.detached := by
  rw [plan,plan,bindText_detached]
  cases c.bindText text with
  | error e => rfl
  | ok bound => exact optimise_detached (fun _ => detaches_of_mem) limit bound

theorem Catalog.root_of_ofDirectory {fs : FileSystem} {path : String} {caseSensitive : Bool}
    {c : Catalog} (h : ofDirectory fs path caseSensitive = .ok c) : c.root = path := by
  obtain ⟨entries,tables,-,-,-,rfl⟩ := ofDirectory_eq_ok_iff.1 h
  rfl

theorem FileSystem.Rereads.readQuery {fs fs' : FileSystem} (h : fs.Rereads fs') (r : PlanRequest) :
    r.readQuery fs = r.readQuery fs' := by
  rw [PlanRequest.readQuery,PlanRequest.readQuery]
  simp only [FileSystem.readText,h.find]

namespace Isolate

/-- An isolate that has served requests, each with the files at its time. -/
def after (s : Isolate) (earlier : List (FileSystem × PlanRequest)) : Isolate :=
  earlier.foldl (fun s x => (s.serve x.1 x.2).isolate) s

/-- A new isolate that keeps no catalogs. -/
def alone (id : Nat) (config : Config) : Isolate := new id { config with cacheCatalogs := false }

/-- Since earlier requests for a directory the files have not changed, and neither they nor the path
that is asked for now spell it out at too great a length. -/
structure Unchanged (earlier : List (FileSystem × PlanRequest)) (fs : FileSystem) (path : String) :
    Prop where
  spells : fs.Spells path
  since : ∀ x ∈ earlier, Path.components x.2.database = Path.components path →
    x.1.Rereads fs ∧ fs.Spells x.2.database

/-- An isolate plans as it was configured to, and each catalog that it keeps is what the directory of
an earlier request gave, and is kept for the components of its path. -/
structure Remembers (config : Config) (earlier : List (FileSystem × PlanRequest)) (s : Isolate) :
    Prop where
  caseSensitive : s.caseSensitive = config.caseSensitive
  limit : s.maxRuleIterations = config.maxRuleIterations
  rules : s.rules = defaultRules
  cacheCatalogs : s.cacheCatalogs = config.cacheCatalogs
  catalogs : ∀ key c, (key,c) ∈ s.catalogs → config.cacheCatalogs ∧ Path.components c.root = key ∧
    ∃ x ∈ earlier, x.2.database = c.root ∧
      Catalog.ofDirectory x.1 c.root config.caseSensitive = .ok c

variable {config : Config} {earlier : List (FileSystem × PlanRequest)} {fs fs' : FileSystem}
  {s : Isolate} {r : PlanRequest}

theorem after_append (s : Isolate) (xs ys : List (FileSystem × PlanRequest)) :
    s.after (xs ++ ys) = (s.after xs).after ys := List.foldl_append

/-! ## What is kept -/

/-- A request leaves a catalog behind that was read for it, where catalogs are kept. -/
structure Leaves (s : Isolate) (fs : FileSystem) (r : PlanRequest) (c : Catalog) : Prop where
  cacheCatalogs : s.cacheCatalogs
  valid : r.validate = .ok ()
  read : s.catalog fs r.database = .ok (c,false)

/-- The catalogs that an isolate keeps after a request. -/
def catalogsAfter (s : Isolate) (fs : FileSystem) (r : PlanRequest) : List (List String × Catalog) :=
  match r.validate,s.catalog fs r.database with
  | .ok _,.ok (c,false) => (s.remember c).catalogs
  | _,_ => s.catalogs

/-- Serving a request changes nothing in an isolate but the catalogs kept and the requests counted. -/
theorem exists_isolate_serve (s : Isolate) (fs : FileSystem) (r : PlanRequest) : ∃ n,
    (s.serve fs r).isolate = { s with catalogs := s.catalogsAfter fs r,plansServed := n } := by
  have hremember : ∀ c, s.remember c = { s with catalogs := (s.remember c).catalogs } := fun c => by
    unfold remember
    split <;> rfl
  have hwork : (s.work fs r).isolate = { s with catalogs := s.catalogsAfter fs r } := by
    unfold Isolate.work catalogsAfter
    cases r.validate with
    | error reason => rfl
    | ok _ =>
      cases s.catalog fs r.database with
      | error stop => rfl
      | ok kept =>
        obtain ⟨c,_|_⟩ := kept
        · exact hremember c
        · rfl
  unfold Isolate.serve
  dsimp only
  split
  · exact ⟨_,by rw [hwork]⟩
  · exact ⟨s.plansServed,hwork⟩
  · exact ⟨s.plansServed,hwork⟩

theorem root_of_read {path : String} {c : Catalog} (hc : s.catalog fs path = .ok (c,false)) :
    c.root = path ∧ Catalog.ofDirectory fs path s.caseSensitive = .ok c := by
  unfold Isolate.catalog at hc
  split at hc
  · cases hc
  · obtain ⟨read,hread,hc⟩ := map_eq_ok_iff.1 hc
    cases hc
    exact ⟨Catalog.root_of_ofDirectory hread,hread⟩

theorem mem_of_kept {path : String} {c : Catalog} (hc : s.catalog fs path = .ok (c,true)) :
    (Path.components path,c) ∈ s.catalogs := by
  unfold Isolate.catalog at hc
  split at hc
  · rename_i kept hkept
    cases hc
    obtain ⟨before,after,hkeeps,-⟩ := List.lookup_eq_some_iff.1 hkept
    simp [hkeeps]
  · obtain ⟨read,hread,hc⟩ := map_eq_ok_iff.1 hc
    cases hc

/-- A catalog is not had for a panic only if the reader of table files panics. -/
theorem exists_panicked {path : String} (h : s.catalog fs path = .error .panicked) :
    ∃ contents, fs.reader contents = .panicked := by
  unfold Isolate.catalog at h
  split at h
  · cases h
  · exact Catalog.exists_panicked (map_eq_error_iff.1 h)

theorem Leaves.catalogsAfter_eq {c : Catalog} (h : s.Leaves fs r c) :
    s.catalogsAfter fs r = (Path.components r.database,c) :: s.catalogs := by
  simp only [catalogsAfter,h.valid,h.read,remember,h.cacheCatalogs,if_true,(root_of_read h.read).1]

theorem catalogsAfter_eq_self (h : ∀ c, ¬ s.Leaves fs r c) : s.catalogsAfter fs r = s.catalogs := by
  unfold catalogsAfter
  split
  · rename_i c hr hc
    have hoff : ¬ s.cacheCatalogs := fun hcache => h c ⟨hcache,hr,hc⟩
    rw [remember,if_neg hoff]
  · rfl

/-- Serving a request keeps what an isolate remembers true. -/
theorem Remembers.serve (h : s.Remembers config earlier) (fs : FileSystem) (r : PlanRequest) :
    (s.serve fs r).isolate.Remembers config (earlier ++ [(fs,r)]) := by
  have hearlier : ∀ key c, (key,c) ∈ s.catalogs → config.cacheCatalogs ∧ Path.components c.root = key ∧
      ∃ x ∈ earlier ++ [(fs,r)], x.2.database = c.root ∧
        Catalog.ofDirectory x.1 c.root config.caseSensitive = .ok c := fun key c hc => by
    obtain ⟨hcache,hkey,x,hx,hread⟩ := h.catalogs key c hc
    exact ⟨hcache,hkey,x,List.mem_append_left _ hx,hread⟩
  obtain ⟨n,hisolate⟩ := exists_isolate_serve s fs r
  rw [hisolate]
  refine ⟨h.caseSensitive,h.limit,h.rules,h.cacheCatalogs,?_⟩
  dsimp only
  by_cases hleaves : ∃ c, s.Leaves fs r c
  · obtain ⟨c,hleaves⟩ := hleaves
    obtain ⟨hroot,hread⟩ := root_of_read hleaves.read
    have hcache := hleaves.cacheCatalogs
    rw [h.cacheCatalogs] at hcache
    rw [h.caseSensitive,← hroot] at hread
    rw [hleaves.catalogsAfter_eq,← hroot]
    intro key d hd
    rcases List.mem_cons.1 hd with hd|hd
    · cases hd
      exact ⟨hcache,rfl,(fs,r),by simp,hroot.symm,hread⟩
    · exact hearlier key d hd
  · rw [catalogsAfter_eq_self fun c hc => hleaves ⟨c,hc⟩]
    exact hearlier

theorem Remembers.after (h : s.Remembers config earlier) (later : List (FileSystem × PlanRequest)) :
    (s.after later).Remembers config (earlier ++ later) := by
  induction later generalizing s earlier with
  | nil => rwa [List.append_nil]
  | cons x later ih =>
    have hrest := ih (h.serve x.1 x.2)
    rwa [List.append_assoc] at hrest

theorem catalog_alone (id : Nat) (config : Config) (fs : FileSystem) (path : String) :
    (alone id config).catalog fs path =
      (Catalog.ofDirectory fs path config.caseSensitive).map (·,false) := rfl

/-- A request fails for the want of a catalog exactly as a new isolate does. -/
theorem Remembers.catalog_eq_error (h : s.Remembers config earlier) {path : String}
    {stop : Stop CatalogError} (hstop : s.catalog fs path = .error stop) (id : Nat) :
    (alone id config).catalog fs path = .error stop := by
  rw [catalog_alone]
  unfold Isolate.catalog at hstop
  split at hstop
  · cases hstop
  · rwa [h.caseSensitive] at hstop

/-- A new isolate reads the same catalog, apart from where its tables are. -/
theorem Remembers.catalog_eq_ok (h : s.Remembers config earlier) {path : String}
    (hkept : config.cacheCatalogs → Unchanged earlier fs path) {c : Catalog} {hit : Bool}
    (hc : s.catalog fs path = .ok (c,hit)) (id : Nat) :
    ∃ c', (alone id config).catalog fs path = .ok (c',false) ∧ c'.detached = c.detached := by
  cases hit with
  | true =>
    obtain ⟨hcache,hkey,x,hx,hdatabase,hread⟩ := h.catalogs _ c (mem_of_kept hc)
    have hunchanged := hkept hcache
    obtain ⟨hreads,hspells⟩ := hunchanged.since x hx (by rw [hdatabase,hkey])
    rw [hdatabase] at hspells
    obtain ⟨c',hc',hdetached⟩ := Catalog.ofDirectory_detached hkey hspells hunchanged.spells
      (hreads.ofDirectory_eq_ok hread)
    exact ⟨c',map_eq_ok_iff.2 ⟨c',hc',rfl⟩,hdetached⟩
  | false =>
    have hread := (root_of_read hc).2
    rw [h.caseSensitive] at hread
    exact ⟨c,map_eq_ok_iff.2 ⟨c,hread,rfl⟩,rfl⟩

theorem plan_eq_error {c c' : Catalog} (h : c'.detached = c.detached) {limit : Nat} {text : String}
    {e : QueryError} (he : (c.plan limit defaultRules text).1 = .error e) :
    (c'.plan limit defaultRules text).1 = .error e := by
  have hplan := c'.plan_detached limit text
  rw [h,c.plan_detached,he] at hplan
  cases hp : (c'.plan limit defaultRules text).1 with
  | error e' =>
    rw [hp] at hplan
    cases hplan
    rfl
  | ok p =>
    rw [hp] at hplan
    cases hplan

theorem plan_eq_ok {c c' : Catalog} (h : c'.detached = c.detached) {limit : Nat} {text : String}
    {p : Plan} (hp : (c.plan limit defaultRules text).1 = .ok p) :
    ∃ p', (c'.plan limit defaultRules text).1 = .ok p' ∧ p'.detached = p.detached := by
  have hplan := c'.plan_detached limit text
  rw [h,c.plan_detached,hp] at hplan
  exact map_eq_ok_iff.1 hplan.symm

/-- What an isolate answers with its memory it would answer as a new one. -/
theorem Remembers.serves (h : s.Remembers config earlier)
    (hkept : config.cacheCatalogs → Unchanged earlier fs r.database)
    {x : Except (Stop IsolateError) PlanResponse} (hx : s.Serves fs r x) (id : Nat) :
    (alone id config).Serves fs r x := by
  cases hx with
  | invalid hr => exact .invalid hr
  | panicked hr hc => exact .panicked hr (h.catalog_eq_error hc id)
  | noCatalog hr hc => exact .noCatalog hr (h.catalog_eq_error hc id)
  | unreadable hr hc ht =>
    obtain ⟨c',hc',-⟩ := h.catalog_eq_ok hkept hc id
    exact .unreadable hr hc' ht
  | unplanned hr hc ht hp =>
    obtain ⟨c',hc',hdetached⟩ := h.catalog_eq_ok hkept hc id
    rw [h.limit,h.rules] at hp
    exact .unplanned hr hc' ht (plan_eq_error hdetached hp)
  | unencoded hr hc ht hp he =>
    obtain ⟨c',hc',hdetached⟩ := h.catalog_eq_ok hkept hc id
    rw [h.limit,h.rules] at hp
    obtain ⟨p',hp',hplan⟩ := plan_eq_ok hdetached hp
    refine .unencoded hr hc' ht hp' ?_
    rw [← EnginePlan.encode_detached,hplan,EnginePlan.encode_detached,he]
  | @planned c hit text plan p hr hc ht hp he =>
    obtain ⟨c',hc',hdetached⟩ := h.catalog_eq_ok hkept hc id
    rw [h.limit,h.rules] at hp
    obtain ⟨p',hp',hplan⟩ := plan_eq_ok hdetached hp
    have hencode : EnginePlan.encode p' = .ok plan := by
      rw [← EnginePlan.encode_detached,hplan,EnginePlan.encode_detached,he]
    have hexplain : p'.explain = p.explain := by
      rw [← p'.explain_detached,hplan,p.explain_detached]
    have htables : p'.tableNames = p.tableNames := by
      rw [← p'.tableNames_detached,hplan,p.tableNames_detached]
    have hserves := Serves.planned (s := alone id config) hr hc' ht hp' hencode
    rwa [hexplain,htables] at hserves

theorem Remembers.result_eq (h : s.Remembers config earlier)
    (hkept : config.cacheCatalogs → Unchanged earlier fs r.database) (id : Nat) :
    (s.serve fs r).result = ((alone id config).serve fs r).result :=
  (h.serves hkept serves_serve id).result_eq.symm

/-- A request for the number of rows of a table. -/
def countRows (database : String) : PlanRequest where
  database := database
  query := .text "SELECT COUNT(*) FROM t"

end Isolate
end QueryPlan
