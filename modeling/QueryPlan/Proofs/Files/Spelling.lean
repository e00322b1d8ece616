import QueryPlan.Catalog.Directory
import QueryPlan.Proofs.Except

/-! # Spellings of a path

Repeated slashes, a slash at the end and dots in the middle ask of the place where they stand that
it be a directory, and lead nowhere else. So two paths with the same components name the same
directory. -/
namespace QueryPlan

namespace Path

/-- The parts of a path that name entries of directories. -/
def names (path : String) : List String := (parts path).filter fun part => !isIdle part

/-- The component that tells where a path starts, if there is one. -/
def mark (path : String) : List String :=
  if isAbsolute path then ["/"] else if (parts path).head? == some "." then ["."] else []

theorem components_eq (path : String) : components path = mark path ++ names path := by
  unfold components mark
  split
  · rfl
  · split <;> rfl

theorem slash_not_mem_splitChars {cs part : List Char} (h : part ∈ splitChars cs) : '/' ∉ part := by
  induction cs generalizing part with
  | nil =>
    rw [splitChars,List.mem_singleton] at h
    simp [h]
  | cons c cs ih =>
    rw [splitChars] at h
    split at h
    · rcases List.mem_cons.1 h with rfl|h
      · simp
      · exact ih h
    · rename_i hc
      split at h
      · rw [List.mem_singleton.1 h]
        simpa using Ne.symm hc
      · rename_i first rest hsplit
        rcases List.mem_cons.1 h with rfl|h
        · have hfirst : '/' ∉ first := ih (by simp [hsplit])
          simpa [hfirst] using Ne.symm hc
        · exact ih (by simp [hsplit,h])

theorem exists_splitChars_eq {c : Char} (h : c ≠ '/') (cs : List Char) :
    ∃ part rest, splitChars (c :: cs) = (c :: part) :: rest := by
  rw [splitChars,if_neg h]
  split
  · exact ⟨[],[],rfl⟩
  · exact ⟨_,_,rfl⟩

theorem ne_slash_of_mem_names {path name : String} (h : name ∈ names path) : name ≠ "/" := by
  rintro rfl
  obtain ⟨part,hpart,hname⟩ := List.mem_map.1 (List.mem_filter.1 h).1
  have hslash : part = ['/'] := by
    rw [← String.toList_ofList (l := part),hname]
    rfl
  exact slash_not_mem_splitChars hpart (by simp [hslash])

theorem ne_dot_of_mem_names {path name : String} (h : name ∈ names path) : name ≠ "." := by
  rintro rfl
  have hidle := (List.mem_filter.1 h).2
  revert hidle
  decide

/-- The names on a path are its components but for the mark. -/
theorem filter_components (path : String) :
    ((components path).filter fun name => name != "/" && name != ".") = names path := by
  have hmark : ((mark path).filter fun name => name != "/" && name != ".") = [] := by
    unfold mark
    split
    · rfl
    · split <;> rfl
  have hnames : ((names path).filter fun name => name != "/" && name != ".") = names path := by
    refine List.filter_eq_self.2 fun name hname => ?_
    simp [ne_slash_of_mem_names hname,ne_dot_of_mem_names hname]
  rw [components_eq,List.filter_append,hmark,hnames,List.nil_append]

theorem head_components (path : String) : (components path).head? = some "/" ↔ isAbsolute path := by
  have hnames : (names path).head? ≠ some "/" := fun h =>
    ne_slash_of_mem_names (List.mem_of_mem_head? h) rfl
  rw [components_eq,mark]
  split
  case isTrue h => simp [h]
  case isFalse h =>
    split
    case isTrue => simp [h]
    case isFalse => simpa [h] using hnames

/-- Only the empty path has no components. -/
theorem components_eq_nil {path : String} : components path = [] ↔ path.isEmpty := by
  constructor
  · intro h
    rw [components_eq,List.append_eq_nil_iff] at h
    obtain ⟨hmark,hnames⟩ := h
    have hidle : ∀ part ∈ parts path, isIdle part := by
      simpa [names,List.filter_eq_nil_iff] using hnames
    unfold mark at hmark
    split at hmark
    · cases hmark
    · rename_i habsolute
      split at hmark
      · cases hmark
      · rename_i hdot
        cases hcs : path.toList with
        | nil => simpa using hcs
        | cons c cs =>
          exfalso
          have hslash : c ≠ '/' := by
            rintro rfl
            simp [isAbsolute,hcs] at habsolute
          obtain ⟨part,rest,hparts⟩ := exists_splitChars_eq hslash cs
          rw [parts,hcs,hparts,List.map_cons] at hidle hdot
          have hfirst := hidle _ List.mem_cons_self
          rw [isIdle,Bool.or_eq_true,beq_iff_eq,beq_iff_eq] at hfirst
          rcases hfirst with hempty|hfirst
          · simpa using congrArg String.toList hempty
          · simp [hfirst] at hdot
  · intro h
    rw [String.isEmpty_iff] at h
    subst h
    rfl

/-- A path with slashes behind it. -/
def padded (path : String) : Nat → String
  | 0 => path
  | n+1 => padded path n ++ "/"

end Path

namespace FileSystem

/-- A directory stands at a place. -/
def leadsOn (root : FileNode) (place : List String) : Bool := (root.at? place).any FileNode.isDirectory

/-- The entries of the directory that a walk ends in, if they are listed. -/
def reached (root : FileNode) (place parts : List String) : Option (List (String × FileNode)) :=
  match walk root place parts with
  | .ok (.directory entries) => some entries
  | _ => none

theorem entries?_eq (fs : FileSystem) {path : String} (hfits : Path.fits path) : fs.entries? path =
    if path.isEmpty then none else reached fs.root (fs.start path) (Path.parts path) := by
  unfold entries? find
  by_cases h : path.isEmpty
  · rw [if_pos h,if_pos h]
  · rw [if_neg h,if_neg h,if_pos hfits]
    rfl

/-- Every step starts from a directory. -/
theorem reached_cons (root : FileNode) (place : List String) (part : String) (parts : List String) :
    reached root place (part :: parts) =
      if leadsOn root place then reached root (step place part) parts else none := by
  unfold reached leadsOn
  rw [walk]
  cases root.at? place with
  | none => rfl
  | some node => cases node <;> rfl

theorem reached_eq_none {root : FileNode} {place : List String} (h : ¬ leadsOn root place)
    (parts : List String) : reached root place parts = none := by
  cases parts with
  | nil =>
    unfold leadsOn at h
    rw [reached,walk]
    cases hnode : root.at? place with
    | none => rfl
    | some node =>
      rw [hnode] at h
      cases node with
      | directory entries => exact absurd rfl h
      | _ => rfl
  | cons part parts => rw [reached_cons,if_neg h]

/-- Parts that name nothing may be left out on the way to a directory. -/
theorem reached_names (root : FileNode) (place parts : List String) :
    reached root place parts = reached root place (parts.filter fun part => !Path.isIdle part) := by
  induction parts generalizing place with
  | nil => rfl
  | cons part parts ih =>
    rw [reached_cons]
    by_cases hidle : Path.isIdle part
    · have hstep : step place part = place := by rw [step,if_pos hidle]
      rw [List.filter_cons_of_neg (by simp [hidle]),hstep,← ih]
      split
      case isTrue => rfl
      case isFalse hplace => rw [reached_eq_none hplace]
    · rw [List.filter_cons_of_pos (by simp [hidle]),reached_cons,ih]

/-- Paths with the same components name the same directory, unless they are too long. -/
theorem entries?_eq_of_components_eq (fs : FileSystem) {p q : String} (hp : Path.fits p)
    (hq : Path.fits q) (h : Path.components p = Path.components q) : fs.entries? p = fs.entries? q := by
  have hempty : p.isEmpty = q.isEmpty := by
    rw [Bool.eq_iff_iff,← Path.components_eq_nil,← Path.components_eq_nil,h]
  have hnames : Path.names p = Path.names q := by
    rw [← Path.filter_components,h,Path.filter_components]
  have hstart : fs.start p = fs.start q := by
    have habsolute : Path.isAbsolute p = Path.isAbsolute q := by
      rw [Bool.eq_iff_iff,← Path.head_components,← Path.head_components,h]
    rw [start,start,habsolute]
  rw [fs.entries?_eq hp,fs.entries?_eq hq,hempty,reached_names,hstart,← Path.names,hnames,Path.names,
    ← reached_names]

/-- A path under which all entries of a directory can be asked for: not even with their names is it too
long. -/
structure Spells (fs : FileSystem) (path : String) : Prop where
  fits : Path.fits path
  entries : ∀ entries, fs.entries? path = some entries → ∀ e ∈ entries, Path.fits (Path.join path e.1)

end FileSystem
end QueryPlan
