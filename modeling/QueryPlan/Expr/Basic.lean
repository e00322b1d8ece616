import QueryPlan.Expr.Literal
import QueryPlan.Expr.Typing

/-! # Row expressions

A column of the input row is named by its position. A call carries its type, so
that rewriting never derives one anew. -/
namespace QueryPlan

inductive Expr where
  | column (index : Nat) (type : SqlType)
  | literal (value : Literal)
  | call (op : Operator) (args : List Expr) (type : SqlType)
deriving Repr

namespace Expr

mutual
def decEq : (a b : Expr) → Decidable (a = b)
  | column i s,column j t => if h : i = j ∧ s = t then isTrue (by rw [h.1,h.2]) else isFalse (by simp_all)
  | literal v,literal w => if h : v = w then isTrue (by rw [h]) else isFalse (by simp_all)
  | call f as s,call g bs t =>
    if h : f = g ∧ s = t then
      match decEqAll as bs with
      | isTrue hs => isTrue (by rw [h.1,h.2,hs])
      | isFalse hs => isFalse (by simp_all)
    else isFalse (by simp_all)
  | column _ _,literal _ | column _ _,call _ _ _ | literal _,column _ _
  | literal _,call _ _ _ | call _ _ _,column _ _ | call _ _ _,literal _ => isFalse (by simp)
def decEqAll : (as bs : List Expr) → Decidable (as = bs)
  | [],[] => isTrue rfl
  | [],_ :: _ | _ :: _,[] => isFalse (by simp)
  | a :: as,b :: bs =>
    match decEq a b with
    | isTrue h =>
      match decEqAll as bs with
      | isTrue hs => isTrue (by rw [h,hs])
      | isFalse hs => isFalse (by simp_all)
    | isFalse h => isFalse (by simp_all)
end

instance : DecidableEq Expr := decEq

def true : Expr := literal (.boolean Bool.true)

def type : Expr → SqlType
  | column _ t => t
  | literal v => v.type
  | call _ _ t => t

/-- Operands of `op` with those of calls of the same operator put in their place. -/
def flatOperands (op : Operator) (args : List Expr) : List Expr :=
  args.flatMap fun
    | call inner nested t => if inner = op then nested else [call inner nested t]
    | e => [e]

/-- A call with the type its operands give it. Conjunctions and disjunctions take in the
operands of nested ones, one level deep. -/
def ofCall (op : Operator) (args : List Expr) : Except QueryError Expr := do
  let t ← op.deriveType (args.map type)
  return call op (if op.isConnective then flatOperands op args else args) t

def cast (e : Expr) (target : SqlType) : Expr := call .cast [e] target

/-- Conjunction of a list; TRUE when it is empty. -/
def all : List Expr → Expr
  | [] => true
  | [e] => e
  | es => call .and (flatOperands .and es) .boolean

mutual
/-- The operands of nested conjunctions, in order and without the literal TRUE. -/
def conjuncts : Expr → List Expr
  | call .and args _ => conjunctsOf args
  | literal (.boolean Bool.true) => []
  | e => [e]
def conjunctsOf : List Expr → List Expr
  | [] => []
  | e :: es => e.conjuncts ++ conjunctsOf es
end

def isTrue (e : Expr) : Bool := e == true

mutual
/-- Adds the columns an expression refers to behind those already seen. -/
def addColumns (seen : List Nat) : Expr → List Nat
  | column i _ => if i ∈ seen then seen else seen ++ [i]
  | literal _ => seen
  | call _ args _ => addColumnsOf seen args
def addColumnsOf (seen : List Nat) : List Expr → List Nat
  | [] => seen
  | e :: es => addColumnsOf (addColumns seen e) es
end

/-- Columns an expression refers to, in order of first reference. -/
def columns (e : Expr) : List Nat := addColumns [] e

mutual
/-- Renumbers every column. -/
def renumber (f : Nat → Nat) : Expr → Expr
  | column i t => column (f i) t
  | literal v => literal v
  | call op args t => call op (renumberAll f args) t
def renumberAll (f : Nat → Nat) : List Expr → List Expr
  | [] => []
  | e :: es => e.renumber f :: renumberAll f es
end

def shiftUp (offset : Nat) (e : Expr) : Expr := e.renumber (· + offset)

def shiftDown (offset : Nat) (e : Expr) : Expr := e.renumber (· - offset)

/-- The position of a column in a list of columns; a column outside it keeps its number. -/
def positionIn (cols : List Nat) (i : Nat) : Nat := if i ∈ cols then cols.idxOf i else i

/-- The expressions `$0`, `$1`, … up to a width, and nothing else. -/
def isIdentity (es : List Expr) (width : Nat) : Bool :=
  es.length == width && es.zipIdx.all fun
    | (column i _,k) => i == k
    | _ => false

mutual
/-- Printed form, shared by explain texts and engine plans. -/
def text : Expr → String
  | column i _ => "$" ++ toString i
  | literal v => v.text
  | call op args t =>
    op.name ++ "(" ++ textAll args ++ ")" ++ if op = .cast then ":" ++ t.text else ""
def textAll : List Expr → String
  | [] => ""
  | [e] => e.text
  | e :: es => e.text ++ ", " ++ textAll es
end

/-- A list of expressions in brackets. -/
def listText (es : List Expr) : String := "[" ++ textAll es ++ "]"

end Expr
end QueryPlan
