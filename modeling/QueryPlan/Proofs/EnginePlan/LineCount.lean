import Mathlib.Algebra.GroupWithZero.Nat
import QueryPlan.Isolate.Session
import QueryPlan.Proofs.EnginePlan.Exprs
import QueryPlan.Proofs.EnginePlan.Numbering

/-! # Lines of engine plans and of explain texts

Both texts have one line for each operator and one more for each line break in the texts that they
repeat as they were given: names of tables and columns, and literals. -/
namespace QueryPlan

/-! ## Line breaks -/

def lineBreaks (text : String) : Nat := text.toList.count '\n'

def lineBreaksOf (texts : List String) : Nat := (texts.map lineBreaks).sum

theorem lineBreaks_append (s t : String) : lineBreaks (s ++ t) = lineBreaks s + lineBreaks t := by
  simp [lineBreaks]

/-- What encloses a text is not counted when it has no line break. -/
theorem lineBreaks_enclosed {front back : String} (hfront : lineBreaks front = 0)
    (hback : lineBreaks back = 0) (s : String) : lineBreaks (front ++ s ++ back) = lineBreaks s := by
  rw [lineBreaks_append,lineBreaks_append,hfront,hback]
  omega

@[simp] theorem lineBreaksOf_nil : lineBreaksOf [] = 0 := rfl

@[simp] theorem lineBreaksOf_cons (s : String) (texts : List String) :
    lineBreaksOf (s :: texts) = lineBreaks s + lineBreaksOf texts := rfl

@[simp] theorem lineBreaksOf_append (texts texts' : List String) :
    lineBreaksOf (texts ++ texts') = lineBreaksOf texts + lineBreaksOf texts' := by
  simp [lineBreaksOf]

theorem lineBreaks_eq_zero {s : String} : lineBreaks s = 0 ↔ '\n' ∉ s.toList := List.count_eq_zero

theorem lineBreaksOf_eq_zero {texts : List String} :
    lineBreaksOf texts = 0 ↔ ∀ s ∈ texts, '\n' ∉ s.toList := by
  induction texts with
  | nil => simp
  | cons s texts ih => simp [ih,lineBreaks_eq_zero]

theorem lineBreaks_intercalate (mark : String) (hmark : lineBreaks mark = 0) (texts : List String) :
    lineBreaks (mark.intercalate texts) = lineBreaksOf texts := by
  induction texts with
  | nil => simp [lineBreaks]
  | cons s texts ih =>
    cases texts with
    | nil => simp [lineBreaks]
    | cons t texts =>
      rw [lineBreaksOf_cons,← ih]
      simp_all [lineBreaks]

theorem lineBreaks_join (lines : List String) :
    lineBreaks (String.join (lines.map (· ++ "\n"))) = lines.length + lineBreaksOf lines := by
  induction lines with
  | nil => rfl
  | cons l lines ih =>
    have hjoin : String.join ((l :: lines).map (· ++ "\n")) =
        l ++ "\n" ++ String.join (lines.map (· ++ "\n")) := by simp
    have hbreak : lineBreaks "\n" = 1 := rfl
    rw [hjoin,lineBreaks_append,lineBreaks_append,ih,hbreak,lineBreaksOf_cons,List.length_cons]
    omega

/-- A text of lines that end in line breaks has these lines, and more where they break. -/
theorem lineCount_join (lines : List String) :
    lineCount (String.join (lines.map (· ++ "\n"))) = lines.length + lineBreaksOf lines := by
  have hlast : (String.join (lines.map (· ++ "\n"))).toList.getLast?.all (· == '\n') := by
    rcases List.eq_nil_or_concat lines with rfl | ⟨front,last,rfl⟩
    · rfl
    · simp
  rw [← lineBreaks_join,lineCount]
  simp only [hlast]
  rfl

@[simp] theorem count_digits (n : Nat) : (Nat.toDigits 10 n).count '\n' = 0 :=
  List.count_eq_zero.2 fun h => absurd (EnginePlan.Reading.isDigit_of_mem_digits h) (by decide)

@[simp] theorem count_intRepr (v : Int) : v.repr.toList.count '\n' = 0 :=
  List.count_eq_zero.2 fun h => absurd (EnginePlan.Reading.inNumber_of_mem_intRepr h) (by decide)

theorem lineBreaks_numbers (mark : String) (hmark : lineBreaks mark = 0) (is : List Nat) :
    lineBreaks (mark.intercalate (is.map toString)) = 0 := by
  rw [lineBreaks_intercalate mark hmark,lineBreaksOf_eq_zero]
  simp only [List.forall_mem_map]
  exact fun i _ => lineBreaks_eq_zero.1 (by simp [lineBreaks])

/-! ## Expressions -/

theorem SqlType.lineBreaks_text (t : SqlType) : lineBreaks t.text = 0 := by
  cases t <;> simp [lineBreaks,text]

namespace Literal

/-- The text that a literal keeps and repeats. -/
def spelling : Literal → List String
  | decimal text | double text | string text | date text => [text]
  | integer _ | boolean _ | null => []

theorem count_doubled (cs : List Char) :
    (cs.flatMap EnginePlan.Reading.doubled).count '\n' = cs.count '\n' := by
  induction cs with
  | nil => rfl
  | cons c cs ih =>
    by_cases hc : c = '\''
    · simp [EnginePlan.Reading.doubled,hc,ih]
    · simp [EnginePlan.Reading.doubled,hc,ih,List.count_cons]

theorem lineBreaks_text (v : Literal) : lineBreaks v.text = lineBreaksOf v.spelling := by
  cases v with
  | integer v => simp [lineBreaks,text,spelling]
  | decimal text =>
    have htype := (decimalType text).lineBreaks_text
    simp_all [lineBreaks,Literal.text,spelling]
  | double text => simp [lineBreaks,Literal.text,spelling]
  | string value =>
    have hquoted := EnginePlan.Reading.toList_quoted value
    simp [lineBreaks,Literal.text,spelling,hquoted,count_doubled]
  | date text => simp [Literal.text,spelling]
  | boolean b => cases b <;> rfl
  | null => rfl

end Literal

namespace Expr

mutual
/-- The texts that the literals of an expression keep. -/
def spellings : Expr → List String
  | column _ _ => []
  | literal v => v.spelling
  | call _ args _ => spellingsOf args
def spellingsOf : List Expr → List String
  | [] => []
  | e :: es => e.spellings ++ spellingsOf es
end

theorem textAll_eq (es : List Expr) : textAll es = ", ".intercalate (es.map text) := by
  rw [← String.toList_inj,toList_textAll]
  simp [Function.comp_def]

theorem lineBreaksOf_map_text {es : List Expr}
    (h : ∀ e ∈ es, lineBreaks e.text = lineBreaksOf e.spellings) :
    lineBreaksOf (es.map text) = lineBreaksOf (spellingsOf es) := by
  induction es with
  | nil => rfl
  | cons e es ih =>
    rw [spellingsOf,List.map_cons,lineBreaksOf_cons,lineBreaksOf_append,h e (by simp),
      ih fun e he => h e (List.mem_cons_of_mem _ he)]

theorem lineBreaks_text (e : Expr) : lineBreaks e.text = lineBreaksOf e.spellings := by
  induction e using induct with
  | column i t => simp [lineBreaks,text,spellings]
  | literal v => exact v.lineBreaks_text
  | call op args t ih =>
    have hop : lineBreaks op.name = 0 := by cases op <;> rfl
    have htarget : lineBreaks (if op = .cast then ":" ++ t.text else "") = 0 := by
      split
      · rw [lineBreaks_append,t.lineBreaks_text]
        rfl
      · rfl
    have hargs := lineBreaksOf_map_text ih
    rw [← lineBreaks_intercalate ", " rfl,← textAll_eq] at hargs
    have hfront : lineBreaks (op.name ++ "(") = 0 := by
      rw [lineBreaks_append,hop]
      rfl
    rw [text,lineBreaks_append,lineBreaks_enclosed hfront rfl,htarget,hargs]
    rfl

theorem lineBreaks_textAll (es : List Expr) :
    lineBreaks (textAll es) = lineBreaksOf (spellingsOf es) := by
  rw [textAll_eq,lineBreaks_intercalate _ rfl,lineBreaksOf_map_text fun e _ => e.lineBreaks_text]

end Expr

theorem AggregateCall.lineBreaks_text (c : AggregateCall) : lineBreaks c.text = 0 := by
  have hname : lineBreaks c.function.name = 0 := by cases c.function <;> rfl
  have hdistinct : lineBreaks (if c.distinct then "DISTINCT " else "") = 0 := by split <;> rfl
  have hargs : lineBreaks (", ".intercalate (c.args.map fun a => "$" ++ toString a)) = 0 := by
    rw [lineBreaks_intercalate _ rfl,lineBreaksOf_eq_zero]
    simp only [List.forall_mem_map]
    exact fun a _ => lineBreaks_eq_zero.1 (by simp [lineBreaks])
  have hfront : lineBreaks (c.function.name ++ "(" ++ if c.distinct then "DISTINCT " else "") = 0 := by
    rw [lineBreaks_append,lineBreaks_append,hname,hdistinct]
    rfl
  exact (lineBreaks_enclosed hfront rfl _).trans hargs

/-! ## Lines of operators -/

namespace Plan

/-- What the line of an operator in an engine plan repeats. -/
def engineTexts : Plan → List String
  | arrowScan t _ => [t.name]
  | filter _ condition => condition.spellings
  | project _ es _ => Expr.spellingsOf es
  | scan _ | join _ _ _ _ | aggregate _ _ _ => []

/-- What the line of an operator in an explain text repeats. -/
def explainTexts : Plan → List String
  | scan t | arrowScan t _ => [t.name]
  | filter _ condition | join _ _ condition _ => condition.spellings
  | project _ es names => (names.zip es).flatMap fun (n,e) => n :: e.spellings
  | aggregate _ _ calls => calls.map AggregateCall.name

theorem lineBreaks_ordinals (is : List Nat) : lineBreaks (ordinals is) = 0 :=
  lineBreaks_numbers _ rfl is

/-- A column with the expression it stands for. -/
theorem lineBreaks_labelled (name text : String) :
    lineBreaks (name ++ "=[" ++ text ++ "]") = lineBreaks name + lineBreaks text := by
  have hopen : lineBreaks "=[" = 0 := rfl
  have hclose : lineBreaks "]" = 0 := rfl
  simp only [lineBreaks_append,hopen,hclose]
  omega

theorem lineBreaks_columns (names : List String) (es : List Expr) :
    lineBreaksOf (names.zipWith (fun n e => n ++ "=[" ++ e.text ++ "]") es) =
      lineBreaksOf ((names.zip es).flatMap fun (n,e) => n :: e.spellings) := by
  induction names generalizing es with
  | nil => rfl
  | cons n names ih =>
    cases es with
    | nil => rfl
    | cons e es =>
      rw [List.zipWith_cons_cons,List.zip_cons_cons,List.flatMap_cons,lineBreaksOf_cons,
        lineBreaksOf_append,lineBreaksOf_cons,lineBreaks_labelled,e.lineBreaks_text,ih]

theorem lineBreaks_calls (calls : List AggregateCall) :
    lineBreaksOf (calls.map fun c => c.name ++ "=[" ++ c.text ++ "]") =
      lineBreaksOf (calls.map AggregateCall.name) := by
  induction calls with
  | nil => rfl
  | cons c calls ih =>
    rw [List.map_cons,List.map_cons,lineBreaksOf_cons,lineBreaksOf_cons,lineBreaks_labelled,
      c.lineBreaks_text,ih,Nat.add_zero]

theorem lineBreaks_describe (p : Plan) : lineBreaks p.describe = lineBreaksOf p.explainTexts := by
  have hclose : lineBreaks ")" = 0 := rfl
  have hclosed : lineBreaks "])" = 0 := rfl
  have htable : lineBreaks "]])" = 0 := rfl
  cases p with
  | scan t =>
    have hopen : lineBreaks "LogicalTableScan(table=[[" = 0 := by decide +kernel
    exact lineBreaks_enclosed hopen htable t.name
  | arrowScan t cols =>
    have hopen : lineBreaks "LogicalArrowTableScan(table=[[" = 0 := by decide +kernel
    have hprojects : lineBreaks "]], projects=[[" = 0 := by decide +kernel
    unfold describe
    dsimp only
    split
    · exact lineBreaks_enclosed hopen htable t.name
    · rw [lineBreaks_append,lineBreaks_append,lineBreaks_enclosed hopen hprojects,
        lineBreaks_ordinals,htable]
      rfl
  | filter input condition =>
    have hopen : lineBreaks "LogicalFilter(condition=[" = 0 := by decide +kernel
    exact (lineBreaks_enclosed hopen hclosed condition.text).trans condition.lineBreaks_text
  | project input es names =>
    have hopen : lineBreaks "LogicalProject(" = 0 := by decide +kernel
    rw [explainTexts,← lineBreaks_columns,← lineBreaks_intercalate ", " rfl]
    exact lineBreaks_enclosed hopen hclose _
  | join left right condition kind =>
    have hopen : lineBreaks "LogicalJoin(condition=[" = 0 := by decide +kernel
    have hkind : lineBreaks "], joinType=[" = 0 := by decide +kernel
    have hname : lineBreaks kind.name = 0 := by cases kind <;> rfl
    unfold describe
    dsimp only
    rw [lineBreaks_append,lineBreaks_append,lineBreaks_enclosed hopen hkind,hname,hclosed]
    exact condition.lineBreaks_text
  | aggregate input groups calls =>
    have hopen : lineBreaks "LogicalAggregate(" = 0 := by decide +kernel
    have hgroups : lineBreaks ("group=[\x7b" ++ ordinals groups ++ "\x7d]") = 0 := by
      rw [lineBreaks_enclosed (by decide +kernel) (by decide +kernel),lineBreaks_ordinals]
    unfold describe
    dsimp only
    rw [lineBreaks_enclosed hopen hclose,lineBreaks_intercalate _ rfl,lineBreaksOf_cons,hgroups,
      lineBreaks_calls,Nat.zero_add,explainTexts]

end Plan

theorem EnginePlan.LineOf.lineBreaks {q : Plan} {places : List Nat} {l : String}
    (h : LineOf q places l) : QueryPlan.lineBreaks l = lineBreaksOf q.engineTexts := by
  cases h with
  | scan t cols =>
    have hcols : QueryPlan.lineBreaks (indices cols) = 0 := lineBreaks_numbers _ rfl cols
    split <;> simp_all [Plan.engineTexts,QueryPlan.lineBreaks]
  | filter input condition i =>
    have htext := condition.lineBreaks_text
    simp_all [Plan.engineTexts,QueryPlan.lineBreaks]
  | project input es ns i =>
    have htext := Expr.lineBreaks_textAll es
    simp_all [Plan.engineTexts,QueryPlan.lineBreaks,Expr.listText]
  | aggregate input groups calls i =>
    have hgroups : QueryPlan.lineBreaks (indices groups) = 0 := lineBreaks_numbers _ rfl groups
    have hcalls : QueryPlan.lineBreaks (",".intercalate (calls.map AggregateCall.text)) = 0 := by
      rw [lineBreaks_intercalate _ rfl,lineBreaksOf_eq_zero]
      simp only [List.forall_mem_map]
      exact fun c _ => lineBreaks_eq_zero.1 c.lineBreaks_text
    simp_all [-String.toList_intercalate,Plan.engineTexts,QueryPlan.lineBreaks]
  | join left right condition kind i j => simp [Plan.engineTexts,QueryPlan.lineBreaks]

/-- Lines break where the texts break that they repeat. -/
theorem lineBreaksOf_repeated {repeated : Plan → List String} {operators : List Plan}
    {lines : List String}
    (h : operators.Forall₂ (fun q l => lineBreaks l = lineBreaksOf (repeated q)) lines) :
    lineBreaksOf lines = lineBreaksOf (operators.flatMap repeated) := by
  induction h with
  | nil => rfl
  | cons hl _ ih => rw [List.flatMap_cons,lineBreaksOf_append,lineBreaksOf_cons,hl,ih]

theorem EnginePlan.Numbered.lineBreaks {operators : List Plan} {lines : List String}
    (h : Numbered operators lines) :
    lineBreaksOf lines = lineBreaksOf (operators.flatMap Plan.engineTexts) := by
  refine lineBreaksOf_repeated (List.forall₂_iff_get.2 ⟨h.length.symm,fun k hk hk' => ?_⟩)
  obtain ⟨l,hl,hline⟩ := h.line k operators[k] (List.getElem?_eq_getElem hk)
  obtain rfl : lines[k] = l := by simpa [hk'] using hl
  exact hline.lineBreaks

namespace Plan

/-- The line of an operator in an explain text, some way to the right. -/
def Outlines (p : Plan) (line : String) : Prop := ∃ depth, line = blanks depth ++ p.describe

theorem Outlines.lineBreaks {p : Plan} {line : String} (h : p.Outlines line) :
    QueryPlan.lineBreaks line = lineBreaksOf p.explainTexts := by
  obtain ⟨depth,rfl⟩ := h
  have hblanks : QueryPlan.lineBreaks (blanks depth) = 0 := by
    simp [QueryPlan.lineBreaks,blanks,List.count_replicate]
  rw [lineBreaks_append,hblanks,p.lineBreaks_describe,Nat.zero_add]

theorem explainLines_outline (p : Plan) (depth : Nat) :
    p.operators.Forall₂ Outlines (p.explainLines depth) := by
  induction p generalizing depth with
  | scan t => exact .cons ⟨depth,rfl⟩ .nil
  | arrowScan t cols => exact .cons ⟨depth,rfl⟩ .nil
  | filter input condition ih => exact .cons ⟨depth,rfl⟩ (ih _)
  | project input es names ih => exact .cons ⟨depth,rfl⟩ (ih _)
  | join left right condition kind ihl ihr =>
    exact .cons ⟨depth,rfl⟩ (List.rel_append (ihl _) (ihr _))
  | aggregate input groups calls ih => exact .cons ⟨depth,rfl⟩ (ih _)

theorem length_operators (p : Plan) : p.operators.length = p.size := by
  rw [← p.postorder_perm.length_eq,p.length_postorder]

/-- What an engine plan repeats. -/
def copiedTexts (p : Plan) : List String := p.operators.flatMap engineTexts

/-- What an explain text repeats. -/
def shownTexts (p : Plan) : List String := p.operators.flatMap explainTexts

theorem lineCount_explain (p : Plan) : lineCount p.explain = p.size + lineBreaksOf p.shownTexts := by
  have houtline := p.explainLines_outline 0
  rw [explain,lineCount_join,← houtline.length_eq,length_operators,
    lineBreaksOf_repeated (houtline.imp fun _ _ h => h.lineBreaks),shownTexts]

end Plan

theorem EnginePlan.lineCount_encode {p : Plan} {text : String} (h : encode p = .ok text) :
    lineCount text = p.size + lineBreaksOf p.copiedTexts := by
  obtain ⟨lines,hlines,rfl⟩ := map_eq_ok_iff.1 h
  have hnumbered := encodeLines_numbered hlines
  have hcopied : lineBreaksOf lines = lineBreaksOf p.copiedTexts := by
    rw [hnumbered.lineBreaks]
    exact ((p.postorder_perm.flatMap_right _).map lineBreaks).sum_nat
  rw [lineCount_join,hnumbered.length,p.length_postorder,hcopied]

/-! ## Responses -/

/-- The two texts of a response and the plan they stand for. Both have one line for each operator,
lines of the engine plan name each other by their places, and more lines come from line breaks in
repeated texts only. -/
structure PlanResponse.LaidOut (response : PlanResponse) (p : Plan) : Prop where
  plan : ∃ lines, response.plan = String.join (lines.map (· ++ "\n")) ∧
    EnginePlan.Numbered p.postorder lines ∧
    (response.operatorCount = p.size → ∀ l ∈ lines, '\n' ∉ l.toList)
  explain : ∃ lines, response.explain = String.join (lines.map (· ++ "\n")) ∧
    p.operators.Forall₂ Plan.Outlines lines ∧
    (lineCount response.explain = p.size → ∀ l ∈ lines, '\n' ∉ l.toList)
  operatorCount : response.operatorCount = p.size + lineBreaksOf p.copiedTexts
  explainCount : lineCount response.explain = p.size + lineBreaksOf p.shownTexts

theorem laidOut_of_encode {p : Plan} {response : PlanResponse}
    (hplan : EnginePlan.encode p = .ok response.plan) (hexplain : response.explain = p.explain) :
    response.LaidOut p where
  plan := by
    obtain ⟨lines,hlines,htext⟩ := map_eq_ok_iff.1 hplan
    have hnumbered := EnginePlan.encodeLines_numbered hlines
    refine ⟨lines,htext.symm,hnumbered,fun hcount => ?_⟩
    rw [PlanResponse.operatorCount,← htext,lineCount_join,hnumbered.length,
      p.length_postorder] at hcount
    exact lineBreaksOf_eq_zero.1 (by omega)
  explain := by
    have houtline := p.explainLines_outline 0
    refine ⟨p.explainLines 0,hexplain,houtline,fun hcount => ?_⟩
    rw [hexplain,Plan.explain,lineCount_join,← houtline.length_eq,p.length_operators] at hcount
    exact lineBreaksOf_eq_zero.1 (by omega)
  operatorCount := EnginePlan.lineCount_encode hplan
  explainCount := by rw [hexplain,p.lineCount_explain]

/-- A request that is answered has the lines of the plan that its query was optimised to. -/
theorem Isolate.respond_laidOut {s : Isolate} {fs : FileSystem} {c : Catalog} {r : PlanRequest}
    {response : PlanResponse} (h : (s.respond fs c r).1 = .ok response) :
    ∃ text p, r.readQuery fs = .ok text ∧ (c.plan s.maxRuleIterations s.rules text).1 = .ok p ∧
      response.LaidOut p := by
  unfold respond at h
  split at h
  case h_1 => cases h
  case h_2 text htext =>
    split at h
    case h_1 => cases h
    case h_2 p entries hp =>
      dsimp only at h
      split at h
      case h_1 => cases h
      case h_2 plan hplan =>
        cases h
        exact ⟨text,p,htext,by rw [hp],laidOut_of_encode hplan rfl⟩

def shopIsolate : Isolate := Isolate.new 1 {}

def noFiles : FileSystem where
  root := .directory []
  current := []
  reader _ := .unreadable ""

def averagePerCustomer : PlanRequest where
  database := "shop"
  query := .text "SELECT customer, AVG(total) FROM orders GROUP BY customer"

def averagePerCustomerResponse : PlanResponse where
  plan := "S;orders;true;2,1\nA;0;0;SUM($1),COUNT($1)\nP;1;[$0, CAST(/($1, $2)):INTEGER]\n"
  explain := "LogicalProject(customer=[$0], EXPR$1=[CAST(/($1, $2)):INTEGER])\n" ++
    "  LogicalAggregate(group=[\x7b0\x7d], $f1=[SUM($1)], $f2=[COUNT($1)])\n" ++
    "    LogicalArrowTableScan(table=[[orders]], projects=[[2, 1]])\n"
  tables := ["orders"]

theorem respond_laidOut_averagePerCustomer :
    (shopIsolate.respond noFiles shop averagePerCustomer).1 = .ok averagePerCustomerResponse ∧
    ∃ text p, averagePerCustomer.readQuery noFiles = .ok text ∧
      (shop.plan shopIsolate.maxRuleIterations shopIsolate.rules text).1 = .ok p ∧
      averagePerCustomerResponse.LaidOut p := by
  have hresponse : (shopIsolate.respond noFiles shop averagePerCustomer).1 =
      .ok averagePerCustomerResponse := by decide +kernel
  exact ⟨hresponse,Isolate.respond_laidOut hresponse⟩

/-- A string that holds a line break. -/
def brokenString : PlanRequest where
  database := "shop"
  query := .text "SELECT 'a\nb' FROM orders"

def brokenStringPlan : Plan :=
  .project (.arrowScan orders [0]) [.literal (.string "a\nb")] ["EXPR$0"]

/-- Two operators on three lines, in the engine plan and in the explain text. -/
theorem respond_brokenString : ∃ response text, brokenString.readQuery noFiles = .ok text ∧
    (shop.plan shopIsolate.maxRuleIterations shopIsolate.rules text).1 = .ok brokenStringPlan ∧
    (shopIsolate.respond noFiles shop brokenString).1 = .ok response ∧
    brokenStringPlan.size = 2 ∧ response.operatorCount = 3 ∧ lineCount response.explain = 3 := by
  refine ⟨{
    plan := "S;orders;true;0\nP;0;['a\nb']\n"
    explain := "LogicalProject(EXPR$0=['a\nb'])\n" ++
      "  LogicalArrowTableScan(table=[[orders]], projects=[[0]])\n"
    tables := ["orders"] },"SELECT 'a\nb' FROM orders",?_⟩
  decide +kernel

end QueryPlan
