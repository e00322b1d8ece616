import QueryPlan.EnginePlan
import QueryPlan.Proofs.Except
import QueryPlan.Proofs.Relation.WellFormed

/-! # Numbers of lines

An operator is written behind its inputs, on the line that has the number of its place in this
order, and names its inputs by their places. -/
namespace QueryPlan

namespace Plan

/-- The operators of a plan, each behind its inputs. -/
def postorder : Plan → List Plan
  | p@(scan _) | p@(arrowScan _ _) => [p]
  | p@(filter input _) | p@(project input _ _) | p@(aggregate input _ _) => input.postorder ++ [p]
  | p@(join left right _ _) => left.postorder ++ right.postorder ++ [p]

theorem postorder_perm (p : Plan) : p.postorder.Perm p.operators := by
  induction p with
  | scan t => exact .refl _
  | arrowScan t cols => exact .refl _
  | filter input c ih => exact (List.perm_append_singleton _ _).trans (ih.cons _)
  | project input es ns ih => exact (List.perm_append_singleton _ _).trans (ih.cons _)
  | join left right c k ihl ihr =>
    exact (List.perm_append_singleton _ _).trans ((ihl.append ihr).cons _)
  | aggregate input gs cs ih => exact (List.perm_append_singleton _ _).trans (ih.cons _)

@[simp] theorem mem_postorder {p q : Plan} : q ∈ p.postorder ↔ q ∈ p.operators :=
  p.postorder_perm.mem_iff

@[simp] theorem length_postorder (p : Plan) : p.postorder.length = p.size := by
  induction p with
  | scan t => rfl
  | arrowScan t cols => rfl
  | filter input c ih => simp [postorder,size,ih]
  | project input es ns ih => simp [postorder,size,ih]
  | join left right c k ihl ihr => simp [postorder,size,ihl,ihr,Nat.add_assoc]
  | aggregate input gs cs ih => simp [postorder,size,ih]

theorem getLast?_postorder (p : Plan) : p.postorder.getLast? = some p := by
  cases p <;> simp [postorder]

/-- The places of the inputs of an operator whose own place is known: inputs stand right in front
of it, and the second input of a join behind the first. -/
def inputPlaces (place : Nat) : Plan → List Nat
  | scan _ | arrowScan _ _ => []
  | filter _ _ | project _ _ _ | aggregate _ _ _ => [place-1]
  | join _ right _ _ => [place-1-right.size,place-1]

end Plan

namespace EnginePlan

/-- What the line of an operator says, its inputs standing on lines of given numbers. -/
inductive LineOf : Plan → List Nat → String → Prop
  | scan (t : Table) (cols : List Nat) : LineOf (.arrowScan t cols) []
      ("S;" ++ t.name ++ ";" ++ (if t.width = cols.length then "false" else "true") ++ ";" ++
        indices cols)
  | filter (input : Plan) (condition : Expr) (i : Nat) : LineOf (.filter input condition) [i]
      ("F;" ++ toString i ++ ";" ++ condition.text)
  | project (input : Plan) (es : List Expr) (ns : List String) (i : Nat) :
      LineOf (.project input es ns) [i] ("P;" ++ toString i ++ ";" ++ Expr.listText es)
  | aggregate (input : Plan) (groups : List Nat) (calls : List AggregateCall) (i : Nat)
      (plain : ∀ c ∈ calls, c.distinct = false) : LineOf (.aggregate input groups calls) [i]
      ("A;" ++ toString i ++ ";" ++ indices groups ++ ";" ++
        ",".intercalate (calls.map AggregateCall.text))
  | join (left right : Plan) (condition : Expr) (kind : JoinKind) (i j : Nat) {lower higher : Nat}
      (columns : equiColumns kind condition = .ok (lower,higher)) :
      LineOf (.join left right condition kind) [i,j]
      ("J;" ++ toString i ++ ";" ++ toString j ++ ";" ++ toString lower ++ ";" ++ toString higher)

/-- Lines of operators, one for each and in their order, with the numbers of lines that belong to
the inputs and stand before. -/
structure Numbered (operators : List Plan) (lines : List String) : Prop where
  length : lines.length = operators.length
  line : ∀ (k : Nat) (q : Plan), operators[k]? = some q →
    ∃ l, lines[k]? = some l ∧ LineOf q (q.inputPlaces k) l
  inputs : ∀ (k : Nat) (q : Plan), operators[k]? = some q →
    (q.inputPlaces k).map ((operators.take k)[·]?) = q.inputs.map some

namespace Numbered

variable {operators : List Plan} {lines : List String} {p : Plan} {l : String}

theorem nil : Numbered [] [] := ⟨rfl,by simp,by simp⟩

theorem getElem?_snoc {k : Nat} {q : Plan} (h : (operators ++ [p])[k]? = some q) :
    operators[k]? = some q ∨ k = operators.length ∧ q = p := by
  rw [List.getElem?_append] at h
  split at h
  case isTrue => exact .inl h
  case isFalse =>
    obtain ⟨hzero,rfl⟩ : k - operators.length = 0 ∧ p = q := by
      simpa using List.getElem?_eq_some_iff.1 h
    exact .inr ⟨by omega,rfl⟩

theorem snoc (h : Numbered operators lines) (hline : LineOf p (p.inputPlaces lines.length) l)
    (hinputs : (p.inputPlaces lines.length).map (operators[·]?) = p.inputs.map some) :
    Numbered (operators ++ [p]) (lines ++ [l]) where
  length := by simp [h.length]
  line k q hq := by
    obtain hq | ⟨rfl,rfl⟩ := getElem?_snoc hq
    · obtain ⟨m,hm,hline⟩ := h.line k q hq
      exact ⟨m,by rw [List.getElem?_append_left (List.getElem?_eq_some_iff.1 hm).1,hm],hline⟩
    · exact ⟨l,by simp [← h.length],by rwa [← h.length]⟩
  inputs k q hq := by
    obtain hq | ⟨rfl,rfl⟩ := getElem?_snoc hq
    · have hk := (List.getElem?_eq_some_iff.1 hq).1
      rw [List.take_append_of_le_length (Nat.le_of_lt hk),h.inputs k q hq]
    · rwa [List.take_left,← h.length]

theorem getElem?_of_take {i k : Nat} {q : Plan} (h : (operators.take k)[i]? = some q) :
    operators[i]? = some q := by
  rw [List.getElem?_take] at h
  split at h
  · exact h
  · cases h

theorem getElem?_postorder_last (before : List Plan) (p : Plan) :
    (before ++ p.postorder)[(before ++ p.postorder).length-1]? = some p := by
  rw [← List.getLast?_eq_getElem?,List.getLast?_append,p.getLast?_postorder]
  rfl

/-- The line of an operator with one input follows that of the input. -/
theorem above {before : List Plan} {input : Plan} (h : Numbered (before ++ input.postorder) lines)
    (hplaces : ∀ place, p.inputPlaces place = [place-1]) (hinputs : p.inputs = [input])
    (hline : LineOf p [lines.length-1] l) :
    Numbered (before ++ (input.postorder ++ [p])) (lines ++ [l]) := by
  rw [← List.append_assoc]
  refine h.snoc (by rwa [hplaces]) ?_
  rw [hplaces,hinputs,List.map_singleton,List.map_singleton,h.length,getElem?_postorder_last]

end Numbered

/-- Behind lines of some operators come those of a plan. -/
theorem encodeAfter_numbered {before : List Plan} {written lines : List String} {p : Plan}
    (hbefore : Numbered before written) (h : encodeAfter written p = .ok lines) :
    Numbered (before ++ p.postorder) lines := by
  induction p generalizing before written lines with
  | scan t => cases h
  | arrowScan t cols =>
    cases h
    exact hbefore.snoc (.scan t cols) rfl
  | filter input c ih =>
    obtain ⟨inner,hinner,h⟩ := bind_eq_ok_iff.1 h
    cases h
    exact (ih hbefore hinner).above (fun _ => rfl) rfl (.filter input c _)
  | project input es ns ih =>
    obtain ⟨inner,hinner,h⟩ := bind_eq_ok_iff.1 h
    cases h
    exact (ih hbefore hinner).above (fun _ => rfl) rfl (.project input es ns _)
  | join left right c k ihl ihr =>
    obtain ⟨⟨lower,higher⟩,hcolumns,h⟩ := bind_eq_ok_iff.1 h
    obtain ⟨first,hfirst,h⟩ := bind_eq_ok_iff.1 h
    obtain ⟨both,hboth,h⟩ := bind_eq_ok_iff.1 h
    cases h
    have hleft := ihl hbefore hfirst
    have hnumbered := ihr hleft hboth
    -- the last line of the left input stands before all lines of the right one
    have hplace : both.length-1-right.size = first.length-1 := by
      have := hleft.length
      have := hnumbered.length
      simp only [List.length_append,Plan.length_postorder] at *
      omega
    have hlast : (before ++ left.postorder ++ right.postorder)[first.length-1]? = some left := by
      have hfound := Numbered.getElem?_postorder_last before left
      rw [← hleft.length] at hfound
      rw [List.getElem?_append_left (List.getElem?_eq_some_iff.1 hfound).1]
      exact hfound
    rw [Plan.postorder,← List.append_assoc,← List.append_assoc]
    refine hnumbered.snoc ?_ ?_
    · rw [Plan.inputPlaces,hplace]
      exact .join left right c k _ _ hcolumns
    · simp only [Plan.inputPlaces,Plan.inputs,hplace,hlast,List.map_cons,List.map_nil]
      rw [hnumbered.length,Numbered.getElem?_postorder_last]
  | aggregate input gs cs ih =>
    rw [encodeAfter] at h
    split at h
    case isTrue => cases h
    case isFalse hdistinct =>
      obtain ⟨inner,hinner,h⟩ := bind_eq_ok_iff.1 h
      cases h
      exact (ih hbefore hinner).above (fun _ => rfl) rfl
        (.aggregate input gs cs _ (by simpa using hdistinct))

/-- A plan is written on as many lines as it has operators, each in its place. -/
theorem encodeLines_numbered {p : Plan} {lines : List String} (h : encodeLines p = .ok lines) :
    Numbered p.postorder lines :=
  encodeAfter_numbered .nil h

end EnginePlan
end QueryPlan
