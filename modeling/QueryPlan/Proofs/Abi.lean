import QueryPlan.Abi
import QueryPlan.Proofs.Bytes
import QueryPlan.Proofs.Isolate.Serving
import QueryPlan.Proofs.Relation.WellFormed

/-! # The contract of planning calls

A planning call ends in one status and one text. Where the text goes depends on the status and on
the places that the caller gives. -/
namespace QueryPlan.Abi

/-! ## Arguments and texts -/

/-- The bytes of an argument, up to the first zero, are those of a text. -/
def Gives (argument : Option (List UInt8)) (text : String) : Prop :=
  ∃ bytes, argument = some bytes ∧ text.toUTF8 = ⟨(bytes.takeWhile (· ≠ 0)).toArray⟩

/-- An argument that gives no text, and what is said of it. -/
inductive Spoils (name : String) : Option (List UInt8) → String → Prop
  | missing : Spoils name none (name ++ " is null")
  | broken {bytes : List UInt8} (h : ∀ text, ¬ Gives (some bytes) text) :
    Spoils name (some bytes) (name ++ " is not valid UTF-8")

theorem gives_some_iff {bytes : List UInt8} {text : String} : Gives (some bytes) text ↔
    String.fromUTF8? ⟨(bytes.takeWhile (· ≠ 0)).toArray⟩ = some text := by
  simp [Gives,fromUTF8?_eq_some_iff]

theorem argument_eq_ok_iff {name text : String} {given : Option (List UInt8)} :
    argument name given = .ok text ↔ Gives given text := by
  cases given with
  | none => simp [argument,Gives]
  | some bytes =>
    rw [gives_some_iff,argument]
    split
    case h_1 read hread => rw [hread,Except.ok.injEq,Option.some.injEq]
    case h_2 hnone => simp only [hnone,reduceCtorEq]

theorem argument_eq_error_iff {name reason : String} {given : Option (List UInt8)} :
    argument name given = .error reason ↔ Spoils name given reason := by
  constructor
  · intro h
    cases given with
    | none =>
      cases h
      exact .missing
    | some bytes =>
      rw [argument] at h
      split at h
      case h_1 => cases h
      case h_2 hnone =>
        cases h
        refine .broken fun text htext => ?_
        rw [gives_some_iff.1 htext] at hnone
        cases hnone
  · rintro (_|h)
    · rfl
    · rw [argument]
      split
      case h_1 text htext => exact (h text (gives_some_iff.2 htext)).elim
      case h_2 => rfl

/-- A text is written without zero bytes, so that its reader sees all of it. -/
theorem zero_not_mem_written (text : String) : '\x00' ∉ (written text).toList := by
  simp only [written,String.toList_ofList,List.mem_map,not_exists,not_and]
  intro c _
  split
  · decide
  · assumption

/-! ## Endings of planning calls -/

/-- Both arguments are texts, and the handle names a live isolate. -/
structure Admits (shared : Shared) (raw : Nat) (database query : Option (List UInt8)) (s : Isolate)
    (r : PlanRequest) : Prop where
  database : Gives database r.database
  query : ∃ path, r.query = .path path ∧ Gives query path
  handle : raw ≠ 0
  isolate : ∃ registry, shared = .ok registry ∧ registry.isolate? ⟨raw⟩ = some s

/-- The endings of a planning call: the status and the text that each of them has. -/
inductive Ends (shared : Shared) (fs : FileSystem) (raw : Nat) (database query : Option (List UInt8)) :
    Status → String → Prop
  | database {reason : String} (h : Spoils "database" database reason) :
    Ends shared fs raw database query .invalidArgument reason
  | query {d reason : String} (hd : Gives database d) (h : Spoils "query_path" query reason) :
    Ends shared fs raw database query .invalidArgument reason
  | noHandle {d q : String} (hd : Gives database d) (hq : Gives query q) (h : raw = 0) :
    Ends shared fs raw database query .staleIsolate (IsolateError.stale raw).message
  | stale {d q : String} {registry : Registry} (hd : Gives database d) (hq : Gives query q)
    (hraw : raw ≠ 0) (hs : shared = .ok registry) (h : registry.isolate? ⟨raw⟩ = none) :
    Ends shared fs raw database query .staleIsolate (resultText (.error (.failed (.stale raw))))
  | unconfigured {d q : String} {e : ConfigError} (hd : Gives database d) (hq : Gives query q)
    (hraw : raw ≠ 0) (h : shared = .error e) :
    Ends shared fs raw database query .internal e.message
  | request {s : Isolate} {r : PlanRequest} {reason : InvalidRequest}
    (ha : Admits shared raw database query s r)
    (h : s.Serves fs r (.error (.failed (.invalidRequest reason)))) :
    Ends shared fs raw database query .invalidArgument (resultText (.error (.failed (.invalidRequest reason))))
  | catalog {s : Isolate} {r : PlanRequest} {e : CatalogError}
    (ha : Admits shared raw database query s r) (h : s.Serves fs r (.error (.failed (.catalog e)))) :
    Ends shared fs raw database query .planFailed (resultText (.error (.failed (.catalog e))))
  | unplanned {s : Isolate} {r : PlanRequest} {e : QueryError}
    (ha : Admits shared raw database query s r) (h : s.Serves fs r (.error (.failed (.query e)))) :
    Ends shared fs raw database query .planFailed (resultText (.error (.failed (.query e))))
  | unencoded {s : Isolate} {r : PlanRequest} {e : EncodeError}
    (ha : Admits shared raw database query s r) (h : s.Serves fs r (.error (.failed (.encode e)))) :
    Ends shared fs raw database query .planFailed (resultText (.error (.failed (.encode e))))
  | panicked {s : Isolate} {r : PlanRequest} (ha : Admits shared raw database query s r)
    (h : s.Serves fs r (.error .panicked)) :
    Ends shared fs raw database query .internal "planner panicked"
  | planned {s : Isolate} {r : PlanRequest} {response : PlanResponse}
    (ha : Admits shared raw database query s r) (h : s.Serves fs r (.ok response)) :
    Ends shared fs raw database query .ok response.plan

section
variable {shared : Shared} {fs : FileSystem} {raw : Nat} {database query : Option (List UInt8)}

theorem checked_eq_ok_iff {h : IsolateHandle} {r : PlanRequest} :
    checked raw database query = .ok (h,r) ↔ ∃ d q, Gives database d ∧ Gives query q ∧ raw ≠ 0 ∧
      h = ⟨raw⟩ ∧ r = { database := d,query := .path q } := by
  constructor
  · intro h
    rw [checked] at h
    split at h
    case h_1 => cases h
    case h_2 => cases h
    case h_3 d q hd hq =>
      rw [argument_eq_ok_iff] at hd hq
      rw [IsolateHandle.ofRaw?] at h
      by_cases hraw : raw = 0
      · rw [if_pos hraw] at h
        cases h
      · rw [if_neg hraw] at h
        cases h
        exact ⟨d,q,hd,hq,hraw,rfl,rfl⟩
  · rintro ⟨d,q,hd,hq,hraw,rfl,rfl⟩
    rw [checked,argument_eq_ok_iff.2 hd,argument_eq_ok_iff.2 hq]
    simp only [IsolateHandle.ofRaw?,hraw,if_false]

theorem ends_of_checked {status : Status} {reason : String}
    (h : checked raw database query = .error (status,reason)) :
    Ends shared fs raw database query status reason := by
  rw [checked] at h
  split at h
  case h_1 hd =>
    cases h
    exact .database (argument_eq_error_iff.1 hd)
  case h_2 hd hq =>
    cases h
    exact .query (argument_eq_ok_iff.1 hd) (argument_eq_error_iff.1 hq)
  case h_3 d q hd hq =>
    rw [argument_eq_ok_iff] at hd hq
    rw [IsolateHandle.ofRaw?] at h
    by_cases hraw : raw = 0
    · rw [if_pos hraw] at h
      cases h
      exact .noHandle hd hq hraw
    · rw [if_neg hraw] at h
      cases h

/-- Serving a request fails in no other way than the request, the catalog, the query or the plan,
unless it panics. -/
theorem ends_of_serves {s : Isolate} {r : PlanRequest}
    {result : Except (Stop IsolateError) PlanResponse}
    (ha : Admits shared raw database query s r) (h : s.Serves fs r result) :
    Ends shared fs raw database query (Status.ofPlan result) (resultText result) := by
  cases result with
  | ok response => exact .planned ha h
  | error stop =>
    cases stop with
    | panicked => exact .panicked ha h
    | failed e =>
      cases e with
      | exhausted limit => nomatch h
      | stale isolate => nomatch h
      | invalidRequest reason => exact .request ha h
      | catalog e => exact .catalog ha h
      | query e => exact .unplanned ha h
      | encode e => exact .unencoded ha h

/-- Every call has an ending. -/
theorem ends_planText : Ends shared fs raw database query
    (shared.planText fs raw database query).1 (shared.planText fs raw database query).2.1 := by
  cases hc : checked raw database query with
  | error e =>
    obtain ⟨status,reason⟩ := e
    cases shared <;> simpa only [Shared.planText,planText,hc] using ends_of_checked hc
  | ok admitted =>
    obtain ⟨h,r⟩ := admitted
    obtain ⟨d,q,hd,hq,hraw,rfl,rfl⟩ := checked_eq_ok_iff.1 hc
    cases shared with
    | error e => simpa only [Shared.planText,hc] using Ends.unconfigured hd hq hraw rfl
    | ok registry =>
      simp only [Shared.planText,planText,hc,Registry.plan]
      cases hs : registry.isolate? ⟨raw⟩ with
      | none => exact .stale hd hq hraw rfl hs
      | some s => exact ends_of_serves ⟨hd,⟨q,rfl,hq⟩,hraw,registry,rfl,hs⟩ Isolate.serves_serve

theorem planText_of_checked {status : Status} {reason : String}
    (h : checked raw database query = .error (status,reason)) :
    (shared.planText fs raw database query).1 = status ∧
      (shared.planText fs raw database query).2.1 = reason := by
  cases shared <;> simp only [Shared.planText,planText,h,and_self]

theorem planText_of_serves {s : Isolate} {r : PlanRequest}
    {result : Except (Stop IsolateError) PlanResponse}
    (ha : Admits shared raw database query s r) (h : s.Serves fs r result) :
    (shared.planText fs raw database query).1 = Status.ofPlan result ∧
      (shared.planText fs raw database query).2.1 = resultText result := by
  obtain ⟨d,source⟩ := r
  obtain ⟨hd,⟨q,rfl,hq⟩,hraw,registry,rfl,hs⟩ := ha
  have hc := checked_eq_ok_iff.2 ⟨d,q,hd,hq,hraw,rfl,rfl⟩
  simp only [Shared.planText,planText,hc,Registry.plan,hs,h.result_eq,and_self]

/-- No call has two endings. -/
theorem Ends.planText_eq {status : Status} {text : String}
    (h : Ends shared fs raw database query status text) :
    (shared.planText fs raw database query).1 = status ∧
      (shared.planText fs raw database query).2.1 = text := by
  cases h with
  | database h =>
    exact planText_of_checked (by simp only [checked,argument_eq_error_iff.2 h])
  | query hd h =>
    exact planText_of_checked (by
      simp only [checked,argument_eq_ok_iff.2 hd,argument_eq_error_iff.2 h])
  | noHandle hd hq h =>
    exact planText_of_checked (by
      simp only [checked,argument_eq_ok_iff.2 hd,argument_eq_ok_iff.2 hq,IsolateHandle.ofRaw?,h,
        if_true])
  | stale hd hq hraw hs h =>
    subst hs
    have hc := checked_eq_ok_iff.2 ⟨_,_,hd,hq,hraw,rfl,rfl⟩
    simp only [Shared.planText,Abi.planText,hc,Registry.plan,h]
    exact ⟨rfl,rfl⟩
  | unconfigured hd hq hraw h =>
    subst h
    have hc := checked_eq_ok_iff.2 ⟨_,_,hd,hq,hraw,rfl,rfl⟩
    simp only [Shared.planText,hc,and_self]
  | request ha h => exact planText_of_serves ha h
  | catalog ha h => exact planText_of_serves ha h
  | unplanned ha h => exact planText_of_serves ha h
  | unencoded ha h => exact planText_of_serves ha h
  | panicked ha h => exact planText_of_serves ha h
  | planned ha h => exact planText_of_serves ha h

/-! ## What is left in the two places -/

/-- The status, the plan and the error of an answer agree with the ending of the call. -/
structure Contract (shared : Shared) (fs : FileSystem) (raw : Nat)
    (database query : Option (List UInt8)) (out err : Bool) (a : Answer Shared) : Prop where
  /-- Success leaves the plan and no error. -/
  ok : a.status = .ok → out = true ∧ a.err = none ∧
    ∃ plan, Ends shared fs raw database query .ok plan ∧ a.out = some (written plan)
  /-- Failure leaves no plan, and its reason unless all that failed is that a plan has no place. -/
  notOk : a.status ≠ .ok → a.out = none ∧
    ((∃ reason, Ends shared fs raw database query a.status reason ∧
        a.err = if err then some (written reason) else none) ∨
      (a.status = .invalidArgument ∧ a.err = none ∧ out = false ∧
        ∃ plan, Ends shared fs raw database query .ok plan))
  /-- The status is the one of the ending. -/
  status {status : Status} {text : String} (h : Ends shared fs raw database query status text) :
    a.status = if status = .ok ∧ out = false then .invalidArgument else status
  /-- A zero byte ends a text. -/
  whole {text : String} (h : a.out = some text ∨ a.err = some text) : '\x00' ∉ text.toList

theorem settle_whole {State : Type} {status : Status} {text left : String} {after : State}
    {entries : List LogEntry} {out err : Bool}
    (h : (settle status text after entries out err).out = some left ∨
      (settle status text after entries out err).err = some left) : '\x00' ∉ left.toList := by
  have hleft : left = written text := by
    unfold settle at h
    split at h
    · cases out <;> simp_all
    · cases err <;> simp_all
  exact hleft ▸ zero_not_mem_written text

/-- What a planning call leaves behind, for every registry, handle, argument and place. -/
theorem Shared.plan_contract (shared : Shared) (fs : FileSystem) (raw : Nat)
    (database query : Option (List UInt8)) (out err : Bool) :
    Contract shared fs raw database query out err (shared.plan fs raw database query out err) := by
  have hends : Ends shared fs raw database query _ _ := ends_planText
  have hunique {status : Status} {text : String}
      (h : Ends shared fs raw database query status text) :
      (shared.planText fs raw database query).1 = status := h.planText_eq.1
  unfold Shared.plan
  generalize shared.planText fs raw database query = ended at hends hunique
  obtain ⟨status,text,after,entries⟩ := ended
  dsimp only at hends hunique ⊢
  by_cases hok : status = .ok
  · subst hok
    cases out with
    | false => exact {
        ok := nofun
        notOk := fun _ => ⟨rfl,.inr ⟨rfl,rfl,rfl,text,hends⟩⟩
        status := fun h => by rw [← hunique h]; rfl
        whole := settle_whole }
    | true => exact {
        ok := fun _ => ⟨rfl,rfl,text,hends,rfl⟩
        notOk := fun h => (h rfl).elim
        status := fun h => by rw [← hunique h]; rfl
        whole := settle_whole }
  · have hsettle : settle status text after entries out err =
        ⟨status,none,if err then some (written text) else none,after,entries⟩ := if_neg hok
    exact {
      ok := fun h => (hok (by rwa [hsettle] at h)).elim
      notOk := fun _ => by
        rw [hsettle]
        exact ⟨rfl,.inl ⟨text,hends,rfl⟩⟩
      status := fun h => by
        rw [← hunique h,hsettle]
        exact (if_neg fun hplace => hok hplace.1).symm
      whole := settle_whole }

end

/-- A process with one isolate, which keeps the catalog of the shop. -/
def shopProcess : Shared := .ok {
  Registry.new {} with
  isolates := [(1,{ Isolate.new 1 {} with catalogs := [(["shop"],shop)] })]
  nextId := 2 }

def orderIdsFile : FileSystem where
  root := .directory [("q.sql",.file "SELECT id FROM orders".toUTF8)]
  current := []
  reader _ := .unreadable ""

/-- A plan that has no place is a failure without a reason, also where there is a place for one. -/
theorem plan_shopProcess :
    let answer (out : Bool) := shopProcess.plan orderIdsFile 1 (some "shop".toUTF8.toList)
      (some "q.sql".toUTF8.toList) out true
    (answer true).status = .ok ∧ (answer true).out = some "S;orders;true;0\n" ∧
      (answer false).status = .invalidArgument ∧ (answer false).err = none := by
  decide +kernel

end QueryPlan.Abi
