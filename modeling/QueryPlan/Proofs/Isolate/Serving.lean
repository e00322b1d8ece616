import QueryPlan.Isolate.Session

/-! # What serving a request comes to -/
namespace QueryPlan.Isolate

/-- The endings of the work on a request: the first part of it that fails gives the error, and the
files of a directory may stop it altogether. -/
inductive Serves (s : Isolate) (fs : FileSystem) (r : PlanRequest) :
    Except (Stop IsolateError) PlanResponse → Prop
  | invalid {reason : InvalidRequest} (h : r.validate = .error reason) :
    Serves s fs r (.error (.failed (.invalidRequest reason)))
  | panicked (hr : r.validate = .ok ()) (h : s.catalog fs r.database = .error .panicked) :
    Serves s fs r (.error .panicked)
  | noCatalog {e : CatalogError} (hr : r.validate = .ok ())
    (h : s.catalog fs r.database = .error (.failed e)) : Serves s fs r (.error (.failed (.catalog e)))
  | unreadable {c : Catalog} {hit : Bool} {e : QueryError} (hr : r.validate = .ok ())
    (hc : s.catalog fs r.database = .ok (c,hit)) (h : r.readQuery fs = .error e) :
    Serves s fs r (.error (.failed (.query e)))
  | unplanned {c : Catalog} {hit : Bool} {text : String} {e : QueryError}
    (hr : r.validate = .ok ()) (hc : s.catalog fs r.database = .ok (c,hit))
    (ht : r.readQuery fs = .ok text) (h : (c.plan s.maxRuleIterations s.rules text).1 = .error e) :
    Serves s fs r (.error (.failed (.query e)))
  | unencoded {c : Catalog} {hit : Bool} {text : String} {p : Plan} {e : EncodeError}
    (hr : r.validate = .ok ()) (hc : s.catalog fs r.database = .ok (c,hit))
    (ht : r.readQuery fs = .ok text) (hp : (c.plan s.maxRuleIterations s.rules text).1 = .ok p)
    (h : EnginePlan.encode p = .error e) : Serves s fs r (.error (.failed (.encode e)))
  | planned {c : Catalog} {hit : Bool} {text plan : String} {p : Plan}
    (hr : r.validate = .ok ()) (hc : s.catalog fs r.database = .ok (c,hit))
    (ht : r.readQuery fs = .ok text) (hp : (c.plan s.maxRuleIterations s.rules text).1 = .ok p)
    (h : EnginePlan.encode p = .ok plan) :
    Serves s fs r (.ok { plan,explain := p.explain,tables := p.tableNames })

variable {s : Isolate} {fs : FileSystem} {r : PlanRequest}

@[simp] theorem serve_result : (s.serve fs r).result = (s.work fs r).result := by
  unfold serve
  dsimp only
  split <;> rfl

theorem serves_respond {c : Catalog} {hit : Bool} (hr : r.validate = .ok ())
    (hc : s.catalog fs r.database = .ok (c,hit)) :
    s.Serves fs r ((s.respond fs c r).1.mapError .failed) := by
  unfold respond
  split
  case h_1 e he => exact .unreadable hr hc he
  case h_2 text ht =>
    split
    case h_1 e entries he => exact .unplanned hr hc ht (by rw [he])
    case h_2 p entries hp =>
      dsimp only
      split
      case h_1 e he => exact .unencoded hr hc ht (by rw [hp]) he
      case h_2 plan hplan => exact .planned hr hc ht (by rw [hp]) hplan

theorem serves_serve : s.Serves fs r (s.serve fs r).result := by
  rw [serve_result,work]
  split
  case h_1 reason h => exact .invalid h
  case h_2 hr =>
    split
    case h_1 stop h =>
      cases stop with
      | failed e => exact .noCatalog hr h
      | panicked => exact .panicked hr h
    case h_2 c hit hc => exact serves_respond hr hc

theorem Serves.result_eq {x : Except (Stop IsolateError) PlanResponse} (h : s.Serves fs r x) :
    (s.serve fs r).result = x := by
  have hpair {α β : Type} {pair : α × β} {a : α} (h : pair.1 = a) : ∃ b, pair = (a,b) :=
    ⟨pair.2,Prod.ext h rfl⟩
  rw [serve_result,work]
  cases h with
  | invalid h => rw [h]
  | panicked hr h =>
    rw [hr,h]
    rfl
  | noCatalog hr h =>
    rw [hr,h]
    rfl
  | unreadable hr hc h =>
    simp only [hr,hc,respond,h]
    rfl
  | unplanned hr hc ht h =>
    obtain ⟨entries,hplan⟩ := hpair h
    simp only [hr,hc,respond,ht,hplan]
    rfl
  | unencoded hr hc ht hp h =>
    obtain ⟨entries,hplan⟩ := hpair hp
    simp only [hr,hc,respond,ht,hplan,h]
    rfl
  | planned hr hc ht hp h =>
    obtain ⟨entries,hplan⟩ := hpair hp
    simp only [hr,hc,respond,ht,hplan,h]
    rfl

/-- The endings are those that serving has, one for each request. -/
theorem serve_result_eq_iff {x : Except (Stop IsolateError) PlanResponse} :
    (s.serve fs r).result = x ↔ s.Serves fs r x :=
  ⟨fun h => h ▸ serves_serve,Serves.result_eq⟩

end QueryPlan.Isolate
