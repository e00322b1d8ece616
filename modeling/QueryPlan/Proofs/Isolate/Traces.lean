import QueryPlan.Proofs.Isolate.Memory

/-! # What a request leaves for later ones

A request leaves at most the catalog of its directory behind. So it shows in no answer on another
directory, and on its own one only where the files have changed since or a path is too long. -/
namespace QueryPlan.Isolate

/-- Two isolates that plan alike and keep the same for the components of a path. -/
structure SameFor (key : List String) (s s' : Isolate) : Prop where
  caseSensitive : s.caseSensitive = s'.caseSensitive
  cacheCatalogs : s.cacheCatalogs = s'.cacheCatalogs
  limit : s.maxRuleIterations = s'.maxRuleIterations
  rules : s.rules = s'.rules
  kept : s.catalogs.lookup key = s'.catalogs.lookup key

variable {s s' : Isolate} {fs : FileSystem} {r : PlanRequest} {key : List String}

theorem SameFor.symm (h : SameFor key s s') : SameFor key s' s :=
  ⟨h.caseSensitive.symm,h.cacheCatalogs.symm,h.limit.symm,h.rules.symm,h.kept.symm⟩

/-! ## One request -/

theorem SameFor.catalog {path : String} (h : SameFor (Path.components path) s s') :
    s.catalog fs path = s'.catalog fs path := by
  rw [Isolate.catalog,Isolate.catalog,cached?,cached?,h.kept,h.caseSensitive]

theorem SameFor.respond (h : SameFor key s s') (c : Catalog) :
    (s.respond fs c r).1 = (s'.respond fs c r).1 := by
  unfold Isolate.respond
  rw [h.limit,h.rules]
  split
  · rfl
  · split
    · rfl
    · dsimp only
      split <;> rfl

theorem SameFor.result (h : SameFor (Path.components r.database) s s') :
    (s.serve fs r).result = (s'.serve fs r).result := by
  rw [serve_result,serve_result,work,work,h.catalog]
  split
  · rfl
  · split
    · rfl
    · exact congrArg (Except.mapError Stop.failed) (h.respond _)

theorem Leaves.of_sameFor {c : Catalog} (hleaves : s.Leaves fs r c)
    (h : SameFor (Path.components r.database) s s') : s'.Leaves fs r c :=
  ⟨h.cacheCatalogs ▸ hleaves.cacheCatalogs,hleaves.valid,h.catalog ▸ hleaves.read⟩

/-- A request changes nothing that is kept for other directories. -/
theorem lookup_catalogsAfter (hkey : Path.components r.database ≠ key) :
    (s.catalogsAfter fs r).lookup key = s.catalogs.lookup key := by
  by_cases hleaves : ∃ c, s.Leaves fs r c
  · obtain ⟨c,hleaves⟩ := hleaves
    rw [hleaves.catalogsAfter_eq]
    have hne : (key == Path.components r.database) = false := beq_false_of_ne hkey.symm
    rw [List.lookup_cons,hne]
  · rw [catalogsAfter_eq_self fun c hc => hleaves ⟨c,hc⟩]

/-- Isolates that keep the same for a path do so after the same request. -/
theorem SameFor.serve (h : SameFor key s s') (fs : FileSystem) (r : PlanRequest) :
    SameFor key (s.serve fs r).isolate (s'.serve fs r).isolate := by
  obtain ⟨n,hs⟩ := exists_isolate_serve s fs r
  obtain ⟨n',hs'⟩ := exists_isolate_serve s' fs r
  rw [hs,hs']
  refine ⟨h.caseSensitive,h.cacheCatalogs,h.limit,h.rules,?_⟩
  dsimp only
  by_cases hkey : Path.components r.database = key
  · subst hkey
    by_cases hleaves : ∃ c, s.Leaves fs r c
    · obtain ⟨c,hleaves⟩ := hleaves
      rw [hleaves.catalogsAfter_eq,(hleaves.of_sameFor h).catalogsAfter_eq,List.lookup_cons,
        List.lookup_cons,h.kept]
    · have hnone : ∀ c, ¬ s'.Leaves fs r c := fun c hc => hleaves ⟨c,hc.of_sameFor h.symm⟩
      rw [catalogsAfter_eq_self fun c hc => hleaves ⟨c,hc⟩,catalogsAfter_eq_self hnone,h.kept]
  · rw [lookup_catalogsAfter hkey,lookup_catalogsAfter hkey,h.kept]

theorem SameFor.after (h : SameFor key s s') (requests : List (FileSystem × PlanRequest)) :
    SameFor key (s.after requests) (s'.after requests) := by
  induction requests generalizing s s' with
  | nil => exact h
  | cons x requests ih => exact ih (h.serve x.1 x.2)

theorem Unchanged.mono {earlier earlier' : List (FileSystem × PlanRequest)} {path : String}
    (h : Unchanged earlier fs path) (hsubset : earlier' ⊆ earlier) : Unchanged earlier' fs path :=
  ⟨h.spells,fun x hx => h.since x (hsubset hx)⟩

end QueryPlan.Isolate
