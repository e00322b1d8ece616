import QueryPlan.Proofs.EnginePlan.LineCount

/-! # Lines and the addresses of operators

Equal operators may stand at several places of a plan, so a place is told by the way that leads to it
from the root. Addresses in post-order are matched with lines: the line of an operator has the number
of its address, and the numbers written in it are those of the addresses one step further down. -/
namespace QueryPlan

namespace Plan

/-- The operator at an address, which says at each operator on the way what input to go to. -/
def at? (p : Plan) : List Nat → Option Plan
  | [] => some p
  | i :: a => p.inputs[i]?.bind (·.at? a)

/-- The addresses of all operators, those below an operator before its own and those below a left
input before those below a right one. -/
def addresses : Plan → List (List Nat)
  | scan _ | arrowScan _ _ => [[]]
  | filter input _ | project input _ _ | aggregate input _ _ => input.addresses.map (0 :: ·) ++ [[]]
  | join left right _ _ => left.addresses.map (0 :: ·) ++ right.addresses.map (1 :: ·) ++ [[]]

/-- Post-order of addresses: first what lies below an operator, then the operator, and what lies below
one input before what lies below a later one. -/
inductive Precedes : List Nat → List Nat → Prop
  | down (i : Nat) (a : List Nat) : Precedes (i :: a) []
  | across {i j : Nat} (a b : List Nat) (h : i < j) : Precedes (i :: a) (j :: b)
  | inside {a b : List Nat} (i : Nat) (h : Precedes a b) : Precedes (i :: a) (i :: b)

variable {p q : Plan} {i k : Nat} {a : List Nat}

theorem pairwise_map_cons (i : Nat) {as : List (List Nat)} (h : as.Pairwise Precedes) :
    (as.map (i :: ·)).Pairwise Precedes :=
  List.pairwise_map.2 (h.imp (.inside i))

theorem pairwise_root {as : List (List Nat)} (h : as.Pairwise Precedes)
    (hbelow : ∀ a ∈ as, a ≠ []) : (as ++ [[]]).Pairwise Precedes := by
  refine List.pairwise_append.2 ⟨h,List.pairwise_singleton _ _,fun a ha b hb => ?_⟩
  rw [List.mem_singleton.1 hb]
  obtain ⟨i,a,rfl⟩ := List.exists_cons_of_ne_nil (hbelow a ha)
  exact .down i a

theorem pairwise_addresses (p : Plan) : p.addresses.Pairwise Precedes := by
  induction p with
  | scan t => exact List.pairwise_singleton _ _
  | arrowScan t cols => exact List.pairwise_singleton _ _
  | filter input c ih => exact pairwise_root (pairwise_map_cons 0 ih) (by simp)
  | project input es ns ih => exact pairwise_root (pairwise_map_cons 0 ih) (by simp)
  | aggregate input gs cs ih => exact pairwise_root (pairwise_map_cons 0 ih) (by simp)
  | join left right c k ihl ihr =>
    refine pairwise_root (List.pairwise_append.2
      ⟨pairwise_map_cons 0 ihl,pairwise_map_cons 1 ihr,fun a ha b hb => ?_⟩) ?_
    · obtain ⟨a,-,rfl⟩ := List.mem_map.1 ha
      obtain ⟨b,-,rfl⟩ := List.mem_map.1 hb
      exact .across a b Nat.zero_lt_one
    · exact List.forall_mem_append.2 ⟨by simp,by simp⟩

/-- The operators in post-order are those at the addresses. -/
theorem map_at?_addresses (p : Plan) : p.addresses.map p.at? = p.postorder.map some := by
  induction p with
  | scan t => rfl
  | arrowScan t cols => rfl
  | filter input c ih => simpa [addresses,postorder,at?,inputs,Function.comp_def] using ih
  | project input es ns ih => simpa [addresses,postorder,at?,inputs,Function.comp_def] using ih
  | aggregate input gs cs ih => simpa [addresses,postorder,at?,inputs,Function.comp_def] using ih
  | join left right c k ihl ihr =>
    have hleft : (left.addresses.map (0 :: ·)).map (join left right c k).at? = left.postorder.map some := by
      simpa [at?,inputs,Function.comp_def] using ihl
    have hright : (right.addresses.map (1 :: ·)).map (join left right c k).at? =
        right.postorder.map some := by
      simpa [at?,inputs,Function.comp_def] using ihr
    simp [-List.map_map,addresses,postorder,hleft,hright,at?]

@[simp] theorem length_addresses (p : Plan) : p.addresses.length = p.size := by
  rw [← p.length_postorder]
  simpa using congrArg List.length p.map_at?_addresses

/-- All operators have an address among these, and nothing else has. -/
theorem mem_addresses : a ∈ p.addresses ↔ (p.at? a).isSome := by
  constructor
  · intro ha
    have hat : p.at? a ∈ p.postorder.map some := p.map_at?_addresses ▸ List.mem_map_of_mem ha
    obtain ⟨q,-,hq⟩ := List.mem_map.1 hat
    rw [← hq]
    rfl
  · induction a generalizing p with
    | nil => intro _; cases p <;> simp [addresses]
    | cons i a ih =>
      intro h
      obtain ⟨q,hq⟩ := Option.isSome_iff_exists.1 h
      obtain ⟨c,hc,hq⟩ := Option.bind_eq_some_iff.1 hq
      have ha : a ∈ c.addresses := ih (by rw [hq]; rfl)
      obtain ⟨hi,rfl⟩ := List.getElem?_eq_some_iff.1 hc
      cases p with
      | scan t => cases hi
      | arrowScan t cols => cases hi
      | join left right on kind =>
        match i with
        | 0 => simpa [addresses,inputs] using ha
        | 1 => simpa [addresses,inputs] using ha
        | i+2 => exact absurd hi (by simp [inputs])
      | _ =>
        obtain rfl : i = 0 := by simpa [inputs] using hi
        simpa [addresses,inputs] using ha

/-- The last address is that of the root. -/
theorem getElem?_addresses_root (p : Plan) : p.addresses[p.size-1]? = some [] := by
  rw [← p.length_addresses,← List.getLast?_eq_getElem?]
  cases p <;> simp [addresses]

/-- The addresses of the inputs of an operator that has one itself. -/
def inputAddresses (a : List Nat) (q : Plan) : List (List Nat) :=
  (List.range q.inputs.length).map fun i => a ++ [i]

theorem map_cons_inputAddresses (i : Nat) (a : List Nat) (q : Plan) :
    (q.inputAddresses a).map (i :: ·) = q.inputAddresses (i :: a) := by
  simp [inputAddresses,Function.comp_def]

/-- An operator is found at a place of the post-order, behind as many others as stand below it, and the
places of its inputs are those of the addresses one step further down. -/
structure Located (p : Plan) (k : Nat) (a : List Nat) (q : Plan) : Prop where
  found : p.at? a = some q
  size_le : q.size ≤ k+1
  inputs : (q.inputPlaces k).map (p.addresses[·]?) = (q.inputAddresses a).map some

theorem inputPlaces_add (n : Nat) (h : q.size ≤ k+1) :
    q.inputPlaces (n+k) = (q.inputPlaces k).map (n + ·) := by
  cases q with
  | scan t => rfl
  | arrowScan t cols => rfl
  | join left right c kind =>
    have hl := left.size_pos
    have hr := right.size_pos
    simp only [size] at h
    simp only [inputPlaces,List.map_cons,List.map_nil,List.cons.injEq,and_true]
    omega
  | filter input _ | project input _ _ | aggregate input _ _ =>
    have hi := input.size_pos
    simp only [size] at h
    simp only [inputPlaces,List.map_cons,List.map_nil,List.cons.injEq,and_true]
    omega

/-- What is located in an input is located in the operator above, behind the addresses that stand in
front of those of the input. -/
theorem Located.above {input : Plan} (h : input.Located k a q) (front back : List (List Nat))
    (haddresses : p.addresses = front ++ input.addresses.map (i :: ·) ++ back)
    (hinput : p.inputs[i]? = some input) : p.Located (front.length+k) (i :: a) q where
  found := by rw [at?,hinput,Option.bind_some,h.found]
  size_le := Nat.le_trans h.size_le (by omega)
  inputs := by
    have hplace : ∀ place ∈ q.inputPlaces k,
        p.addresses[front.length+place]? = (input.addresses[place]?).map (i :: ·) := by
      intro place hplace
      have hlt : place < input.addresses.length := by
        have hsome : input.addresses[place]? ∈ (q.inputAddresses a).map some :=
          h.inputs ▸ List.mem_map_of_mem hplace
        obtain ⟨b,-,hb⟩ := List.mem_map.1 hsome
        exact (List.getElem?_eq_some_iff.1 hb.symm).1
      rw [haddresses,List.append_assoc,List.getElem?_append_right (Nat.le_add_right _ _),
        Nat.add_sub_cancel_left,List.getElem?_append_left (by simpa using hlt),List.getElem?_map]
    calc (q.inputPlaces (front.length+k)).map (p.addresses[·]?)
        = (q.inputPlaces k).map fun place => p.addresses[front.length+place]? := by
          rw [inputPlaces_add _ h.size_le,List.map_map]
          rfl
      _ = ((q.inputPlaces k).map (input.addresses[·]?)).map (Option.map (i :: ·)) := by
          rw [List.map_map]
          exact List.map_congr_left hplace
      _ = (q.inputAddresses (i :: a)).map some := by
          rw [h.inputs,← map_cons_inputAddresses,List.map_map,List.map_map]
          rfl

theorem Located.above_only {input : Plan} (h : input.Located k a q)
    (haddresses : p.addresses = input.addresses.map (0 :: ·) ++ [[]]) (hinput : p.inputs = [input]) :
    p.Located k (0 :: a) q := by
  have hplace := h.above (p := p) [] [[]] haddresses (by rw [hinput]; rfl)
  rwa [List.length_nil,Nat.zero_add] at hplace

/-- The root is located behind all others. -/
theorem located_root (p : Plan) : p.Located (p.size-1) [] p where
  found := rfl
  size_le := by omega
  inputs := by
    cases p with
    | scan t => rfl
    | arrowScan t cols => rfl
    | join left right c kind =>
      have hl := left.size_pos
      have hr := right.size_pos
      have hleft : (join left right c kind).addresses[left.size-1]? = some [0] := by
        rw [addresses,List.append_assoc,List.getElem?_append_left (by simp; omega),
          List.getElem?_map,left.getElem?_addresses_root]
        rfl
      have hright : (join left right c kind).addresses[left.size+(right.size-1)]? = some [1] := by
        rw [addresses,List.append_assoc,List.getElem?_append_right (by simp),
          List.length_map,length_addresses,Nat.add_sub_cancel_left,
          List.getElem?_append_left (by simp; omega),List.getElem?_map,
          right.getElem?_addresses_root]
        rfl
      have hplaces : (join left right c kind).inputPlaces ((join left right c kind).size-1)
          = [left.size-1,left.size+(right.size-1)] := by
        simp only [inputPlaces,size,List.cons.injEq,and_true]
        omega
      rw [hplaces,List.map_cons,List.map_cons,List.map_nil,hleft,hright]
      rfl
    | filter input _ | project input _ _ | aggregate input _ _ =>
      have hi : input.size-1 < input.size := Nat.sub_lt input.size_pos Nat.one_pos
      have hinput := (List.getElem?_eq_some_iff.1 input.getElem?_addresses_root).2
      simp [inputPlaces,size,addresses,List.getElem?_append,hi,hinput,inputAddresses,Plan.inputs]

/-- An address is the last one, or belongs to an input. -/
theorem getElem?_or_located (as : List (List Nat)) (has : p.addresses = as ++ [[]])
    (h : p.addresses[k]? = some a) : as[k]? = some a ∨ ∃ q, p.Located k a q := by
  have hlength : p.size = as.length+1 := by
    rw [← p.length_addresses,has]
    simp
  rw [has,List.getElem?_append] at h
  split at h
  case isTrue => exact .inl h
  case isFalse =>
    obtain ⟨hk,rfl⟩ : k-as.length = 0 ∧ a = [] := by
      simpa [eq_comm] using List.getElem?_eq_some_iff.1 h
    obtain rfl : k = p.size-1 := by omega
    exact .inr ⟨p,p.located_root⟩

/-- Every address is that of an operator located at its place. -/
theorem exists_located (h : p.addresses[k]? = some a) : ∃ q, p.Located k a q := by
  induction p generalizing k a with
  | scan t => exact (getElem?_or_located [] rfl h).resolve_left (by simp)
  | arrowScan t cols => exact (getElem?_or_located [] rfl h).resolve_left (by simp)
  | filter input c ih | project input es ns ih | aggregate input gs cs ih =>
    refine (getElem?_or_located _ rfl h).elim (fun h => ?_) id
    obtain ⟨b,hb,rfl⟩ := Option.map_eq_some_iff.1 (List.getElem?_map.symm.trans h)
    obtain ⟨q,hq⟩ := ih hb
    exact ⟨q,hq.above_only rfl rfl⟩
  | join left right c kind ihl ihr =>
    refine (getElem?_or_located _ rfl h).elim (fun h => ?_) id
    rw [List.getElem?_append] at h
    split at h
    case isTrue =>
      obtain ⟨b,hb,rfl⟩ := Option.map_eq_some_iff.1 (List.getElem?_map.symm.trans h)
      obtain ⟨q,hq⟩ := ihl hb
      have hplace : (join left right c kind).Located (0+k) (0 :: b) q :=
        hq.above [] (right.addresses.map (1 :: ·) ++ [[]]) (List.append_assoc _ _ _) rfl
      exact ⟨q,Nat.zero_add k ▸ hplace⟩
    case isFalse hk =>
      obtain ⟨b,hb,rfl⟩ := Option.map_eq_some_iff.1 (List.getElem?_map.symm.trans h)
      obtain ⟨q,hq⟩ := ihr hb
      have hplace : (join left right c kind).Located _ (1 :: b) q :=
        hq.above (left.addresses.map (0 :: ·)) [[]] rfl rfl
      exact ⟨q,Nat.add_sub_of_le (Nat.le_of_not_lt hk) ▸ hplace⟩

end Plan

namespace EnginePlan
open Plan

/-- Lines written in post-order. There is one for each address, in the order of the addresses, and it
is the line of the operator there; the numbers in it are smaller than its own, and they are those of
the addresses of the inputs. -/
structure InPostorder (p : Plan) (lines : List String) : Prop where
  addresses : ∀ a, a ∈ p.addresses ↔ (p.at? a).isSome
  order : p.addresses.Pairwise Precedes
  length : lines.length = p.addresses.length
  line : ∀ k a, p.addresses[k]? = some a → ∃ q places l, p.at? a = some q ∧ lines[k]? = some l ∧
    LineOf q places l ∧ places.map (p.addresses[·]?) = (q.inputAddresses a).map some ∧
    ∀ i ∈ places, i < k

theorem inPostorder_of_numbered {p : Plan} {lines : List String}
    (h : Numbered p.postorder lines) : InPostorder p lines where
  addresses _ := mem_addresses
  order := p.pairwise_addresses
  length := by rw [h.length,p.length_postorder,p.length_addresses]
  line k a ha := by
    obtain ⟨q,hq⟩ := exists_located ha
    have hoperator : p.postorder[k]? = some q := by
      have hat : (p.addresses.map p.at?)[k]? = some (some q) := by
        rw [List.getElem?_map,ha,Option.map_some,hq.found]
      simpa [p.map_at?_addresses] using hat
    obtain ⟨l,hl,hline⟩ := h.line k q hoperator
    refine ⟨q,_,l,hq.found,hl,hline,hq.inputs,fun i hi => ?_⟩
    -- A place below `k` is all that is looked up among the operators in front of the line.
    have hsome : (p.postorder.take k)[i]? ∈ q.inputs.map some :=
      h.inputs k q hoperator ▸ List.mem_map_of_mem hi
    obtain ⟨c,-,hc⟩ := List.mem_map.1 hsome
    have hlt := (List.getElem?_eq_some_iff.1 hc.symm).1
    rw [List.length_take] at hlt
    exact (Nat.lt_min.1 hlt).1

/-- The text of a plan consists of its lines in post-order, each ended by a line break. No line has
another one within it, unless a name or a literal that is copied into it has. -/
theorem encode_inPostorder {p : Plan} {text : String} (h : encode p = .ok text) :
    ∃ lines, encodeLines p = .ok lines ∧ text = String.join (lines.map (· ++ "\n")) ∧
      InPostorder p lines ∧ ((∀ s ∈ p.copiedTexts, '\n' ∉ s.toList) → ∀ l ∈ lines, '\n' ∉ l.toList) := by
  obtain ⟨lines,hlines,rfl⟩ := map_eq_ok_iff.1 h
  have hnumbered := encodeLines_numbered hlines
  refine ⟨lines,hlines,rfl,inPostorder_of_numbered hnumbered,fun hcopied => ?_⟩
  refine lineBreaksOf_eq_zero.1 ?_
  rw [hnumbered.lineBreaks,lineBreaksOf_eq_zero]
  simpa [copiedTexts] using hcopied

/-- Large orders beside all orders: the same scan stands at two places. -/
def ordersTwice : Plan :=
  .project (.join (.filter (.arrowScan orders [0,1]) (.call .gt [.column 1 .integer,
      .literal (.integer 10)] .boolean)) (.arrowScan orders [0,1])
    (.call .eq [.column 2 .integer,.column 0 .integer] .boolean) .inner)
    [.column 1 .integer,.column 3 .integer] ["total","total0"]

theorem encode_inPostorder_ordersTwice :
    encode ordersTwice =
      .ok "S;orders;true;0,1\nF;0;>($1, 10)\nS;orders;true;0,1\nJ;1;2;0;2\nP;3;[$1, $3]\n" ∧
    ordersTwice.addresses = [[0,0,0],[0,0],[0,1],[0],[]] ∧
    ∃ lines, encodeLines ordersTwice = .ok lines ∧
      "S;orders;true;0,1\nF;0;>($1, 10)\nS;orders;true;0,1\nJ;1;2;0;2\nP;3;[$1, $3]\n" =
        String.join (lines.map (· ++ "\n")) ∧
      InPostorder ordersTwice lines ∧
      ((∀ s ∈ ordersTwice.copiedTexts, '\n' ∉ s.toList) → ∀ l ∈ lines, '\n' ∉ l.toList) := by
  have htext : encode ordersTwice =
      .ok "S;orders;true;0,1\nF;0;>($1, 10)\nS;orders;true;0,1\nJ;1;2;0;2\nP;3;[$1, $3]\n" := by
    decide +kernel
  exact ⟨htext,rfl,encode_inPostorder htext⟩

end EnginePlan

end QueryPlan
