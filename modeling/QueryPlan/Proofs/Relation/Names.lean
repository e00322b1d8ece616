import Mathlib.Data.List.Induction
import Mathlib.Data.List.Perm.Subperm
import QueryPlan.Proofs.Relation.WellFormed

/-! # Names made distinct

The search for a free counter has no limit of its own. It ends nevertheless: the counters give names
that differ from one another and from the name itself, and one placed name is the name itself, so
the others cannot take all of the first counters. -/
namespace QueryPlan

/-- No name equals a later one, ignoring case. -/
def Unambiguous (names : List String) : Prop :=
  names.Pairwise fun a b => sameIgnoringCase a b = false

instance (names : List String) : Decidable (Unambiguous names) :=
  inferInstanceAs (Decidable (names.Pairwise fun a b => sameIgnoringCase a b = false))

/-- The search for a counter from `k` on, for as long as the names with a counter are taken: it
comes to an end with a name after so many tries. -/
inductive Search (placed : List String) (name : String) : Nat → Nat → String → Prop
  | free {k : Nat} : nameTaken placed (name ++ toString k) = false →
      Search placed name k 1 (name ++ toString k)
  | taken {k tries : Nat} {result : String} : nameTaken placed (name ++ toString k) = true →
      Search placed name (k+1) tries result → Search placed name k (tries+1) result

/-- How a name is placed behind others: as it is exactly if it is free, and otherwise with the
least counter that makes it new, which the search finds with at most as many tries as there are
names. -/
def PlacedBehind (placed : List String) (name entry : String) : Prop :=
  (entry = name ↔ nameTaken placed name = false) ∧ nameTaken placed entry = false ∧
    (entry = name ∨ ∃ k < placed.length, entry = name ++ toString k ∧
      (∀ j < k, nameTaken placed (name ++ toString j) = true) ∧ Search placed name 0 (k+1) entry)

variable {placed names : List String} {name : String}

/-! ## Counters -/

theorem toLower_append (a b : String) : (a ++ b).toLower = a.toLower ++ b.toLower := by
  change (a ++ b).map Char.toLower = a.map Char.toLower ++ b.map Char.toLower
  simp [← String.toList_inj]

theorem toLower_of_isDigit {c : Char} (h : c.isDigit) : c.toLower = c := by
  rw [Char.isDigit,Bool.and_eq_true,decide_eq_true_eq,decide_eq_true_eq] at h
  exact dif_neg fun hupper => absurd (UInt32.le_trans hupper.1 h.2) (by decide)

theorem toLower_digits (k : Nat) : (toString k).toLower = toString k := by
  change (toString k).map Char.toLower = toString k
  rw [← String.toList_inj,String.toList_map,Nat.toString_eq_ofList_toDigits,String.toList_ofList]
  refine (List.map_congr_left fun c hc => ?_).trans (List.map_id _)
  exact toLower_of_isDigit (Nat.isDigit_of_mem_toDigits (by decide) (by decide) hc)

theorem digits_injective {i j : Nat} (h : toString i = toString j) : i = j := by
  rw [Nat.toString_eq_ofList_toDigits,Nat.toString_eq_ofList_toDigits,← String.toList_inj,
    String.toList_ofList,String.toList_ofList] at h
  calc
    i = Nat.ofDigitChars 10 (Nat.toDigits 10 i) 0 := Nat.ofDigitChars_ten_toDigits.symm
    _ = Nat.ofDigitChars 10 (Nat.toDigits 10 j) 0 := by rw [h]
    _ = j := Nat.ofDigitChars_ten_toDigits

theorem nameTaken_iff : nameTaken placed name = true ↔
    name.toLower ∈ placed.map String.toLower := by
  simp [nameTaken,sameIgnoringCase]

/-- Among as many counters as names are placed there is a free one. -/
theorem exists_free (h : nameTaken placed name = true) :
    ∃ k < placed.length, nameTaken placed (name ++ toString k) = false := by
  by_contra hno
  have htaken : ∀ k < placed.length, nameTaken placed (name ++ toString k) = true := by
    intro k hk
    rw [← Bool.not_eq_false]
    exact fun hfree => hno ⟨k,hk,hfree⟩
  have hsub : name.toLower :: (List.range placed.length).map (fun k => (name ++ toString k).toLower)
      ⊆ placed.map String.toLower := by
    refine List.cons_subset.2 ⟨nameTaken_iff.1 h,fun c hc => ?_⟩
    obtain ⟨k,hk,rfl⟩ := List.mem_map.1 hc
    exact nameTaken_iff.1 (htaken k (List.mem_range.1 hk))
  have hnodup : (name.toLower ::
      (List.range placed.length).map (fun k => (name ++ toString k).toLower)).Nodup := by
    simp only [toLower_append,toLower_digits]
    refine List.nodup_cons.2 ⟨fun hmem => ?_,List.nodup_range.map fun i j hij => ?_⟩
    · obtain ⟨k,-,hk⟩ := List.mem_map.1 hmem
      simp at hk
    · exact digits_injective ((String.append_right_inj _).1 hij)
  have hlength := (List.subperm_of_subset hnodup hsub).length_le
  simp only [List.length_cons,List.length_map,List.length_range] at hlength
  omega

/-! ## One name behind others -/

theorem search_from {n k : Nat} (hfree : nameTaken placed (name ++ toString (k+n)) = false)
    (htaken : ∀ j < n, nameTaken placed (name ++ toString (k+j)) = true) :
    Search placed name k (n+1) (name ++ toString (k+n)) := by
  induction n generalizing k with
  | zero => exact .free hfree
  | succ n ih =>
    have hnext : k+(n+1) = k+1+n := by omega
    rw [hnext] at hfree ⊢
    refine .taken (htaken 0 (Nat.succ_pos n)) (ih hfree fun j hj => ?_)
    rw [Nat.add_assoc,Nat.add_comm 1 j]
    exact htaken (j+1) (Nat.succ_lt_succ hj)

/-- The least free counter, below the number of the names. -/
theorem exists_least_free (h : nameTaken placed name = true) : ∃ k < placed.length,
    freeName placed name = name ++ toString k ∧ nameTaken placed (name ++ toString k) = false ∧
      ∀ j < k, nameTaken placed (name ++ toString j) = true := by
  obtain ⟨n,hn,hfree⟩ := exists_free h
  have hfound : ((List.range placed.length).find? fun k =>
      !nameTaken placed (name ++ toString k)).isSome := by
    rw [List.find?_isSome]
    exact ⟨n,List.mem_range.2 hn,by rw [hfree,Bool.not_false]⟩
  obtain ⟨k,hk⟩ := Option.isSome_iff_exists.1 hfound
  obtain ⟨hkfree,hlt,hbefore⟩ := List.find?_range_eq_some.1 hk
  refine ⟨k,List.mem_range.1 hlt,?_,by simpa using hkfree,fun j hj => by simpa using hbefore j hj⟩
  rw [freeName,if_pos h,List.find?_map]
  simp only [Function.comp_def,hk,Option.map_some,Option.getD_some]

theorem freeName_of_free (h : nameTaken placed name = false) : freeName placed name = name := by
  rw [freeName,h]
  rfl

theorem freeName_placedBehind (placed : List String) (name : String) :
    PlacedBehind placed name (freeName placed name) := by
  cases htaken : nameTaken placed name with
  | false =>
    rw [freeName_of_free htaken]
    exact ⟨by simp [htaken],htaken,.inl rfl⟩
  | true =>
    obtain ⟨k,hk,hname,hfree,hbefore⟩ := exists_least_free htaken
    have hsearch : Search placed name 0 (k+1) (name ++ toString k) := by
      have hfrom := search_from (k := 0) (n := k) (by simpa using hfree) (by simpa using hbefore)
      simpa using hfrom
    rw [hname]
    exact ⟨by simp [htaken],hfree,.inr ⟨k,hk,rfl,hbefore,hsearch⟩⟩

/-! ## All names -/

theorem uniquify_concat (names : List String) (name : String) :
    uniquify (names ++ [name]) = uniquify names ++ [freeName (uniquify names) name] := by
  simp [uniquify]

theorem unambiguous_concat : Unambiguous (placed ++ [name]) ↔
    Unambiguous placed ∧ nameTaken placed name = false := by
  simp [Unambiguous,List.pairwise_append,nameTaken]

theorem unambiguous_uniquify (names : List String) : Unambiguous (uniquify names) := by
  induction names using List.reverseRecOn with
  | nil => exact .nil
  | append_singleton names name ih =>
    rw [uniquify_concat,unambiguous_concat]
    exact ⟨ih,(freeName_placedBehind _ _).2.1⟩

/-- Names that are distinct already stay as they are. -/
theorem uniquify_of_unambiguous (h : Unambiguous names) : uniquify names = names := by
  induction names using List.reverseRecOn with
  | nil => rfl
  | append_singleton names name ih =>
    obtain ⟨hnames,hfree⟩ := unambiguous_concat.1 h
    rw [uniquify_concat,ih hnames,freeName_of_free hfree]

theorem prefix_uniquify_append (names more : List String) : uniquify names <+: uniquify (names ++ more) := by
  induction more using List.reverseRecOn with
  | nil => simp
  | append_singleton more name ih =>
    rw [← List.append_assoc,uniquify_concat]
    exact ih.trans (List.prefix_append _ _)

theorem uniquify_take (names : List String) (n : Nat) :
    uniquify (names.take n) = (uniquify names).take n := by
  have hfront := prefix_uniquify_append (names.take n) (names.drop n)
  rw [List.take_append_drop,List.prefix_iff_eq_take,Plan.uniquify_length,List.length_take] at hfront
  rw [hfront,← Plan.uniquify_length names,← List.take_eq_take_min]

/-- Each name is placed behind the entries before its own. -/
theorem uniquify_placed (names : List String) (i : Fin names.length) :
    PlacedBehind ((uniquify names).take i) (names.get i)
      ((uniquify names).get (i.cast (Plan.uniquify_length names).symm)) := by
  have hnext : (uniquify names).take (i+1) =
      (uniquify names).take i ++ [freeName ((uniquify names).take i) (names.get i)] := by
    rw [← uniquify_take,← uniquify_take,List.take_succ_eq_append_getElem i.isLt,uniquify_concat]
    rfl
  have hlt : i < (uniquify names).length := by
    rw [Plan.uniquify_length]
    exact i.isLt
  rw [List.take_succ_eq_append_getElem hlt,List.append_cancel_left_eq,List.singleton_inj] at hnext
  have hentry : (uniquify names).get (i.cast (Plan.uniquify_length names).symm) =
      freeName ((uniquify names).take i) (names.get i) := hnext
  rw [hentry]
  exact freeName_placedBehind _ _

/-- Distinct names take the place of any names: each is kept where it is new and otherwise gets the
least counter that makes it new, the first of them do not depend on the later ones, and distinct
names are left alone. -/
theorem uniquify_renames (names : List String) :
    (uniquify names).length = names.length ∧ Unambiguous (uniquify names) ∧
      (∀ i : Fin names.length, PlacedBehind ((uniquify names).take i) (names.get i)
        ((uniquify names).get (i.cast (Plan.uniquify_length names).symm))) ∧
      (∀ n, uniquify (names.take n) = (uniquify names).take n) ∧
      uniquify (uniquify names) = uniquify names :=
  ⟨Plan.uniquify_length names,unambiguous_uniquify names,uniquify_placed names,uniquify_take names,
    uniquify_of_unambiguous (unambiguous_uniquify names)⟩

example : uniquify ["c0","c1","C0","c1","c10"] = ["c0","c1","C00","c10","c100"] := by cbv

end QueryPlan
