import Mathlib.Data.List.Forall2

/-! # Computations that end in a value -/
namespace QueryPlan

variable {ε α β : Type}

theorem bind_eq_ok_iff {x : Except ε α} {f : α → Except ε β} {b : β} :
    x >>= f = .ok b ↔ ∃ a, x = .ok a ∧ f a = .ok b := by
  cases x with
  | error e => simp [bind,Except.bind]
  | ok a => simp [bind,Except.bind]

theorem bind_eq_error_iff {x : Except ε α} {f : α → Except ε β} {e : ε} :
    x >>= f = .error e ↔ x = .error e ∨ ∃ a, x = .ok a ∧ f a = .error e := by
  cases x with
  | error e => simp [bind,Except.bind]
  | ok a => simp [bind,Except.bind]

theorem map_eq_ok_iff {f : α → β} {x : Except ε α} {b : β} :
    x.map f = .ok b ↔ ∃ a, x = .ok a ∧ f a = b := by
  cases x with
  | error e => simp [Except.map]
  | ok a => simp [Except.map]

theorem map_eq_error_iff {f : α → β} {x : Except ε α} {e : ε} :
    x.map f = .error e ↔ x = .error e := by
  cases x with
  | error e => simp [Except.map]
  | ok a => simp [Except.map]

theorem map_bind {γ : Type} (x : Except ε α) (f : α → Except ε β) (g : β → γ) :
    (x >>= f).map g = x >>= fun a => (f a).map g := by
  cases x <;> rfl

theorem bind_map {γ : Type} (x : Except ε α) (g : α → β) (f : β → Except ε γ) :
    x.map g >>= f = x >>= fun a => f (g a) := by
  cases x <;> rfl

theorem mapM_eq_ok_iff {f : α → Except ε β} {xs : List α} {ys : List β} :
    xs.mapM f = .ok ys ↔ xs.Forall₂ (fun x y => f x = .ok y) ys := by
  induction xs generalizing ys with
  | nil => simp [pure,Except.pure,eq_comm]
  | cons x xs ih =>
    rw [List.mapM_cons,bind_eq_ok_iff,List.forall₂_cons_left_iff]
    constructor
    · rintro ⟨y,hy,h⟩
      obtain ⟨zs,hz,h⟩ := bind_eq_ok_iff.1 h
      exact ⟨y,zs,hy,ih.1 hz,(Except.ok.inj h).symm⟩
    · rintro ⟨y,zs,hy,hz,rfl⟩
      exact ⟨y,hy,bind_eq_ok_iff.2 ⟨zs,ih.2 hz,rfl⟩⟩

theorem mapM_total {f : α → Except ε β} {xs : List α} (h : ∀ x ∈ xs, ∃ y, f x = .ok y) :
    ∃ ys, xs.mapM f = .ok ys := by
  induction xs with
  | nil => exact ⟨[],rfl⟩
  | cons x xs ih =>
    obtain ⟨⟨y,hy⟩,hxs⟩ := List.forall_mem_cons.1 h
    obtain ⟨ys,hys⟩ := ih hxs
    refine ⟨y :: ys,?_⟩
    rw [List.mapM_cons]
    exact bind_eq_ok_iff.2 ⟨y,hy,bind_eq_ok_iff.2 ⟨ys,hys,rfl⟩⟩

theorem exists_of_mapM_error {f : α → Except ε β} {xs : List α} {e : ε} (h : xs.mapM f = .error e) :
    ∃ x ∈ xs, f x = .error e := by
  induction xs with
  | nil => cases h
  | cons x xs ih =>
    rw [List.mapM_cons] at h
    obtain h|⟨y,-,h⟩ := bind_eq_error_iff.1 h
    · exact ⟨x,List.mem_cons_self,h⟩
    · obtain h|⟨ys,-,h⟩ := bind_eq_error_iff.1 h
      · obtain ⟨z,hz,h⟩ := ih h
        exact ⟨z,List.mem_cons_of_mem _ hz,h⟩
      · cases h

theorem foldlM_induction_mem {P : β → Prop} {f : β → α → Except ε β} {xs : List α} {b c : β}
    (hstep : ∀ b, ∀ x ∈ xs, ∀ c, P b → f b x = .ok c → P c) (hb : P b) (h : xs.foldlM f b = .ok c) :
    P c := by
  induction xs generalizing b with
  | nil =>
    cases h
    exact hb
  | cons x xs ih =>
    rw [List.foldlM_cons] at h
    obtain ⟨d,hd,h⟩ := bind_eq_ok_iff.1 h
    exact ih (fun b y hy => hstep b y (List.mem_cons_of_mem x hy)) (hstep b x List.mem_cons_self d hb hd) h

theorem foldlM_induction {P : β → Prop} {f : β → α → Except ε β} {xs : List α} {b c : β}
    (hstep : ∀ b x c, P b → f b x = .ok c → P c) (hb : P b) (h : xs.foldlM f b = .ok c) : P c :=
  foldlM_induction_mem (fun b x _ => hstep b x) hb h

/-- What is true after any step is true after one step or more. -/
theorem foldlM_cons_spec {P : β → Prop} {f : β → α → Except ε β} {x : α} {xs : List α} {b c : β}
    (hstep : ∀ b x c, f b x = .ok c → P c) (h : (x :: xs).foldlM f b = .ok c) : P c := by
  rw [List.foldlM_cons] at h
  obtain ⟨d,hd,h⟩ := bind_eq_ok_iff.1 h
  exact foldlM_induction (fun b y c _ => hstep b y c) (hstep b x d hd) h

/-- Where each step commutes with a map of the states, so does the whole fold. -/
theorem foldlM_map {γ : Type} {f : β → α → Except ε β} {f' : γ → α → Except ε γ} {g : β → γ}
    (hstep : ∀ b x, f' (g b) x = (f b x).map g) (xs : List α) (b : β) :
    xs.foldlM f' (g b) = (xs.foldlM f b).map g := by
  induction xs generalizing b with
  | nil => rfl
  | cons x xs ih =>
    rw [List.foldlM_cons,List.foldlM_cons,hstep,bind_map,map_bind]
    exact congrArg _ (funext ih)

/-! ## Two computations side by side -/

/-- A list stands beside its map. -/
theorem forall₂_map (f : α → β) (xs : List α) : xs.Forall₂ (fun x y => f x = y) (xs.map f) :=
  List.forall₂_map_right_iff.2 (List.forall₂_same.2 fun _ _ => rfl)

theorem exists_of_forall₂ {R : α → β → Prop} {xs : List α} {ys : List β} (h : xs.Forall₂ R ys) {x : α}
    (hx : x ∈ xs) : ∃ y ∈ ys, R x y := by
  induction h with
  | nil => cases hx
  | cons hxy _ ih =>
    rcases List.mem_cons.1 hx with rfl|hx
    · exact ⟨_,List.mem_cons_self,hxy⟩
    · obtain ⟨y,hy,hR⟩ := ih hx
      exact ⟨y,List.mem_cons_of_mem _ hy,hR⟩

/-- Two computations that end alike: both in related values, or both in related errors. -/
inductive LiftRel {ε' β : Type} (E : ε → ε' → Prop) (R : α → β → Prop) :
    Except ε α → Except ε' β → Prop
  | ok {a : α} {b : β} : R a b → LiftRel E R (.ok a) (.ok b)
  | error {e : ε} {e' : ε'} : E e e' → LiftRel E R (.error e) (.error e')

namespace LiftRel
variable {ε' γ δ : Type} {E : ε → ε' → Prop} {R : α → β → Prop} {S : γ → δ → Prop}

theorem refl {E : ε → ε → Prop} {R : α → α → Prop} (hE : ∀ e, E e e) (hR : ∀ a, R a a)
    (x : Except ε α) : LiftRel E R x x := by
  cases x with
  | ok a => exact .ok (hR a)
  | error e => exact .error (hE e)

theorem bind {x : Except ε α} {y : Except ε' β} {f : α → Except ε γ} {g : β → Except ε' δ}
    (h : LiftRel E R x y) (hf : ∀ a b, R a b → LiftRel E S (f a) (g b)) :
    LiftRel E S (x >>= f) (y >>= g) := by
  cases h with
  | ok h => exact hf _ _ h
  | error h => exact .error h

theorem bind_eq {x : Except ε α} {y : Except ε' α} {f : α → Except ε γ} {g : α → Except ε' δ}
    (h : LiftRel E Eq x y) (hf : ∀ a, LiftRel E S (f a) (g a)) : LiftRel E S (x >>= f) (y >>= g) :=
  h.bind fun a _ hab => hab ▸ hf a

theorem mapM {f : α → Except ε γ} {g : β → Except ε' δ} {xs : List α} {ys : List β}
    (h : xs.Forall₂ (fun x y => LiftRel E S (f x) (g y)) ys) :
    LiftRel E (List.Forall₂ S) (xs.mapM f) (ys.mapM g) := by
  induction h with
  | nil => exact .ok .nil
  | cons hxy _ ih =>
    rw [List.mapM_cons,List.mapM_cons]
    exact hxy.bind fun a b hab => ih.bind fun as bs hrest => .ok (.cons hab hrest)

theorem foldlM {f : γ → α → Except ε γ} {g : δ → β → Except ε' δ} {xs : List α} {ys : List β}
    {c : γ} {d : δ} (h : xs.Forall₂ R ys) (hcd : S c d)
    (hstep : ∀ c d x y, S c d → R x y → LiftRel E S (f c x) (g d y)) :
    LiftRel E S (xs.foldlM f c) (ys.foldlM g d) := by
  induction h generalizing c d with
  | nil => exact .ok hcd
  | cons hxy _ ih =>
    rw [List.foldlM_cons,List.foldlM_cons]
    exact (hstep c d _ _ hcd hxy).bind fun _ _ => ih

/-- Two computations that end like a third one end like each other. -/
theorem meet {β₁ β₂ ε₁ ε₂ : Type} {E₁ : ε₁ → ε → Prop} {E₂ : ε₂ → ε → Prop} {R₁ : β₁ → α → Prop}
    {R₂ : β₂ → α → Prop} {x : Except ε₁ β₁} {y : Except ε₂ β₂} {z : Except ε α}
    (hx : LiftRel E₁ R₁ x z) (hy : LiftRel E₂ R₂ y z) :
    LiftRel (fun e₁ e₂ => ∃ e, E₁ e₁ e ∧ E₂ e₂ e) (fun b₁ b₂ => ∃ a, R₁ b₁ a ∧ R₂ b₂ a) x y := by
  cases hx with
  | ok hx =>
    cases hy with
    | ok hy => exact .ok ⟨_,hx,hy⟩
  | error hx =>
    cases hy with
    | error hy => exact .error ⟨_,hx,hy⟩

end LiftRel

end QueryPlan
