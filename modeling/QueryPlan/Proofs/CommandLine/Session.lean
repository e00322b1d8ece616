import QueryPlan.CommandLine.Session
import QueryPlan.Proofs.CommandLine.Lines
import QueryPlan.Proofs.Isolate.History
import QueryPlan.Proofs.Isolate.Traces
import QueryPlan.Proofs.Json.Reading

/-! # Sessions answer line by line

A session hands the requests among its lines to one isolate, so that its answers are those of the
isolate, and one line shows in the answer to another one only by a catalog that is kept. Each answer is
one line of JSON, and on every way out the registry has the isolates that it had before. -/
namespace QueryPlan

/-! ## Answers as JSON -/

namespace Session

/-! ## Lines and their answers -/

/-- The lines that are answered: those before the first that is no text, without blank ones. -/
def requestLines (lines : List (Option String)) : List String :=
  ((lines.takeWhile Option.isSome).filterMap id).filter (!isBlankLine ·)

/-- What a session is asked after some lines: each of these lines, with the files at the time of its
answer. -/
def askedFrom (w : World) (served : Nat) (lines : List (Option String)) : List (FileSystem × String) :=
  (requestLines lines).mapIdx fun i line => (w.files (served+i),line)

def asked (w : World) (input : List UInt8) : List (FileSystem × String) :=
  askedFrom w 0 (inputLines input)

/-- The requests among lines. -/
def requestsOf (refusal : String → String) (xs : List (FileSystem × String)) :
    List (FileSystem × PlanRequest) :=
  xs.filterMap fun x => (requestOf refusal x.2).toOption.map (x.1,·)

/-- The answer of an isolate to a line, unless its plan panics. -/
def answerOf (refusal : String → String) (s : Isolate) (x : FileSystem × String) : Option Response :=
  match requestOf refusal x.2 with
  | .error e => some (.failure e.code e.message)
  | .ok request => (Stop.returned? (s.serve x.1 request).result).map .ofPlan

/-- The answers of an isolate to one line after the other. -/
def answersOf (refusal : String → String) :
    Isolate → List (FileSystem × String) → List (Option Response)
  | _,[] => []
  | s,x :: xs => answerOf refusal s x :: answersOf refusal (s.after (requestsOf refusal [x])) xs

/-- The answers of the isolate that a session over a registry gets. -/
def given (r : Registry) (w : World) (input : List UInt8) : List (Option Response) :=
  answersOf w.refusal (Isolate.new r.nextId r.config) (asked w input)

/-- Answers up to the first that a panic takes away. -/
def answered (given : List (Option Response)) : List Response :=
  (given.takeWhile Option.isSome).filterMap id

section
variable {refusal : String → String} {s : Isolate} {x : FileSystem × String} {a : Response}

end

/-! ## One line -/

section
variable {before : List (Nat × Isolate)} {owned : Isolate} {s : Session} {r : Registry}

/-- A session owns the last isolate of a registry. -/
structure Owns (before : List (Nat × Isolate)) (owned : Isolate) (s : Session) (r : Registry) : Prop where
  fresh : s.guarded.handle.raw ∉ before.map Prod.fst
  isolates : r.isolates = before ++ [(s.guarded.handle.raw,owned)]

theorem Owns.isolate? (h : s.Owns before owned r) : r.isolate? s.guarded.handle = some owned := by
  have hbefore : before.lookup s.guarded.handle.raw = none :=
    List.lookup_eq_none_iff.2 fun e he => by
      simpa using fun heq => h.fresh (List.mem_map.2 ⟨e,he,heq.symm⟩)
  rw [Registry.isolate?,h.isolates,List.lookup_append,hbefore]
  simp

theorem Owns.ne_of_mem (h : s.Owns before owned r) {e : Nat × Isolate} (he : e ∈ before) :
    e.1 ≠ s.guarded.handle.raw := fun heq => h.fresh (List.mem_map.2 ⟨e,he,heq⟩)

theorem Owns.plan (h : s.Owns before owned r) (fs : FileSystem) (request : PlanRequest) :
    (s.guarded.plan r fs request).result = (owned.serve fs request).result ∧
      s.Owns before (owned.serve fs request).isolate (s.guarded.plan r fs request).registry := by
  simp only [IsolateGuard.plan,Registry.plan,h.isolate?]
  refine ⟨trivial,h.fresh,?_⟩
  rw [Registry.isolates_countServed,Registry.set,h.isolates,List.map_append]
  have hbefore : ∀ e ∈ before, (if e.1 == s.guarded.handle.raw then
      (e.1,(owned.serve fs request).isolate) else e) = e :=
    fun e he => if_neg (by simpa using h.ne_of_mem he)
  rw [List.map_congr_left hbefore,List.map_id']
  simp

/-- Giving the isolate back leaves the others. -/
theorem Owns.release (h : s.Owns before owned r) :
    (s.guarded.release r).result = .ok () ∧ (s.guarded.release r).registry.isolates = before := by
  simp only [IsolateGuard.release,Registry.release,h.isolate?]
  refine ⟨trivial,?_⟩
  have hbefore : before.filter (·.1 != s.guarded.handle.raw) = before :=
    List.filter_eq_self.2 fun e he => by simpa using h.ne_of_mem he
  simp only [Registry.count,Registry.erase,h.isolates,List.filter_append,hbefore]
  simp

/-- A line is answered by the isolate, which the session still owns. -/
theorem Owns.answer (h : s.Owns before owned r) (refusal : String → String) (fs : FileSystem)
    (line : String) : (s.answer refusal r fs line).1 = answerOf refusal owned (fs,line) ∧
      s.Owns before (owned.after (requestsOf refusal [(fs,line)])) (s.answer refusal r fs line).2.1 := by
  cases hrequest : requestOf refusal line with
  | error e => simpa [Session.answer,answerOf,requestsOf,hrequest,Isolate.after,Except.toOption] using h
  | ok request =>
    obtain ⟨hresult,howns⟩ := h.plan fs request
    simpa [Session.answer,answerOf,requestsOf,hrequest,hresult,Isolate.after,Except.toOption] using howns

theorem Owns.abandon (h : s.Owns before owned r) (stop : Stop CommandError) :
    (s.abandon r stop).lines = [] ∧ (s.abandon r stop).result = .error stop ∧
      (s.abandon r stop).registry.isolates = before := ⟨rfl,rfl,h.release.2⟩

theorem Owns.finish (h : s.Owns before owned r) :
    (s.finish r).1 = .ok () ∧ (s.finish r).2.1.isolates = before := by
  obtain ⟨hresult,hisolates⟩ := h.release
  refine ⟨?_,hisolates⟩
  rw [Session.finish,hresult]
  rfl

end

/-! ## All lines -/

/-- As much of a list as there is room for. -/
def upTo {α : Type} : Option Nat → List α → List α
  | none,xs => xs
  | some room,xs => xs.take room

/-- How a session ends: where the output does, at a panic, at a line that is no text, or at the end of
its input. -/
def ending (outputEnd : Option OutputEnd) (given : List (Option Response))
    (lines : List (Option String)) : Except (Stop CommandError) Unit :=
  match outputEnd.filter (·.room < (answered given).length) with
  | some e => .error (.failed e.error)
  | none =>
    if given.all Option.isSome then
      if lines.all Option.isSome then .ok () else .error (.failed notText)
    else .error .panicked

section
variable {outputEnd : Option OutputEnd} {line : String} {lines : List (Option String)}
  {answers : List (Option Response)} {a : Response}

theorem askedFrom_blank (hline : isBlankLine line) (w : World) (served : Nat) :
    askedFrom w served (some line :: lines) = askedFrom w served lines := by
  simp [askedFrom,requestLines,hline]

theorem askedFrom_some (hline : ¬ isBlankLine line) (w : World) (served : Nat) :
    askedFrom w served (some line :: lines) =
      (w.files served,line) :: askedFrom w (served+1) lines := by
  have hrequests : requestLines (some line :: lines) = line :: requestLines lines := by
    simp [requestLines,hline]
  have hcount : ∀ i, served+1+i = served+(i+1) := fun i => by omega
  simp only [askedFrom,hrequests,List.mapIdx_cons,Nat.add_zero,hcount]

theorem answered_cons : answered (some a :: answers) = a :: answered answers := by simp [answered]

theorem ending_blank : ending outputEnd answers (some line :: lines) = ending outputEnd answers lines := by
  simp [ending]

theorem ending_panicked : ending outputEnd (none :: answers) lines = .error .panicked := by
  cases outputEnd <;> simp [ending,answered]

theorem ending_full {e : OutputEnd} (h : e.room = 0) :
    ending (some e) (some a :: answers) lines = .error (.failed e.error) := by
  simp [ending,answered_cons,Option.filter,h]

/-- The rest of an output behind a line. -/
def OutputEnd.behind (e : OutputEnd) : OutputEnd := { e with room := e.room-1 }

theorem ending_cons (h : ∀ e ∈ outputEnd, e.room ≠ 0) :
    ending outputEnd (some a :: answers) (some line :: lines) =
      ending (outputEnd.map OutputEnd.behind) answers lines := by
  cases outputEnd with
  | none => simp [ending]
  | some e =>
    have hroom : e.room ≠ 0 := h e rfl
    have hlt : e.room < (answered answers).length+1 ↔ e.room-1 < (answered answers).length := by omega
    by_cases hfull : e.room-1 < (answered answers).length
    · simp [ending,answered_cons,Option.filter,OutputEnd.behind,OutputEnd.error,hlt,hfull]
    · simp [ending,answered_cons,Option.filter,OutputEnd.behind,hlt,hfull]

theorem upTo_cons {α : Type} (x : α) (xs : List α) (h : ∀ e ∈ outputEnd, e.room ≠ 0) :
    upTo (outputEnd.map OutputEnd.room) (x :: xs) =
      x :: upTo ((outputEnd.map OutputEnd.behind).map OutputEnd.room) xs := by
  cases outputEnd with
  | none => rfl
  | some e =>
    obtain ⟨n,hn⟩ := Nat.exists_eq_add_one_of_ne_zero (h e rfl)
    simp [upTo,OutputEnd.behind,hn]

end

/-- What a session comes to that is given some answers: those lines that there are and that the output
takes, an ending, and the isolates that there were before. -/
structure ComesTo (outputEnd : Option OutputEnd) (given : List (Option Response))
    (input : List (Option String)) (before : List (Nat × Isolate)) (run : Run) : Prop where
  lines : run.lines = upTo (outputEnd.map OutputEnd.room) ((answered given).map Response.line)
  result : run.result = ending outputEnd given input
  isolates : run.registry.isolates = before

section
variable {before : List (Nat × Isolate)} {owned : Isolate} {s : Session} {r : Registry}
  {outputEnd : Option OutputEnd} {line : String} {lines : List (Option String)}
  {answers : List (Option Response)} {a : Response} {run : Run}

theorem Owns.comesTo_finish (h : s.Owns before owned r) (w : World) (outputEnd : Option OutputEnd) :
    ComesTo outputEnd [] [] before (answerAll w s r []) where
  lines := by cases outputEnd <;> simp [Session.answerAll,answered,upTo]
  result := by
    cases outputEnd <;>
      simp [Session.answerAll,h.finish.1,ending,answered,Except.mapError,Option.filter]
  isolates := h.finish.2

theorem Owns.comesTo_notText (h : s.Owns before owned r) (outputEnd : Option OutputEnd) :
    ComesTo outputEnd [] (none :: lines) before (s.abandon r (.failed notText)) where
  lines := by cases outputEnd <;> simp [h.abandon,answered,upTo]
  result := by cases outputEnd <;> simp [h.abandon,answered,ending,Option.filter]
  isolates := (h.abandon _).2.2

theorem Owns.comesTo_panicked (h : s.Owns before owned r) :
    ComesTo outputEnd (none :: answers) lines before (s.abandon r .panicked) where
  lines := by cases outputEnd <;> simp [h.abandon,answered,upTo]
  result := by rw [(h.abandon _).2.1,ending_panicked]
  isolates := (h.abandon _).2.2

theorem Owns.comesTo_full (h : s.Owns before owned r) {e : OutputEnd} (hroom : e.room = 0) :
    ComesTo (some e) (some a :: answers) lines before (s.abandon r (.failed e.error)) where
  lines := by simp [h.abandon,upTo,hroom]
  result := by rw [(h.abandon _).2.1,ending_full hroom]
  isolates := (h.abandon _).2.2

theorem ComesTo.blank (h : ComesTo outputEnd answers lines before run) :
    ComesTo outputEnd answers (some line :: lines) before run :=
  ⟨h.lines,h.result.trans ending_blank.symm,h.isolates⟩

theorem ComesTo.more (h : ComesTo (outputEnd.map OutputEnd.behind) answers lines before run)
    (hroom : ∀ e ∈ outputEnd, e.room ≠ 0) : ComesTo outputEnd (some a :: answers)
      (some line :: lines) before { run with lines := a.line :: run.lines } where
  lines := by rw [h.lines,answered_cons,List.map_cons,upTo_cons _ _ hroom]
  result := h.result.trans (ending_cons hroom).symm
  isolates := h.isolates

theorem ComesTo.logged (h : ComesTo outputEnd answers lines before run) (entries : List LogEntry) :
    ComesTo outputEnd answers lines before { run with entries := entries ++ run.entries } :=
  ⟨h.lines,h.result,h.isolates⟩

end

/-- An output end that comes so many lines later. -/
def OutputEnd.farther (n : Nat) (e : OutputEnd) : OutputEnd := { e with room := n+e.room }

theorem map_farther_behind {outputEnd : Option OutputEnd} (h : ∀ e ∈ outputEnd, e.room ≠ 0) (n : Nat) :
    (outputEnd.map OutputEnd.behind).map (OutputEnd.farther (n+1)) =
      outputEnd.map (OutputEnd.farther n) := by
  cases outputEnd with
  | none => rfl
  | some e =>
    have hone : n+1+(e.room-1) = n+e.room := by
      have hpos := h e rfl
      omega
    simp [OutputEnd.farther,OutputEnd.behind,hone]

/-- What a session that owns its isolate comes to. `outputEnd` is counted from here on. -/
theorem Owns.answerAll {before : List (Nat × Isolate)} {owned : Isolate} {s : Session} {r : Registry}
    {w : World} (h : s.Owns before owned r) {outputEnd : Option OutputEnd}
    (hend : w.outputEnd = outputEnd.map (OutputEnd.farther s.served)) (lines : List (Option String)) :
    ComesTo outputEnd (answersOf w.refusal owned (askedFrom w s.served lines)) lines before
      (answerAll w s r lines) := by
  induction lines generalizing s r owned outputEnd with
  | nil => exact h.comesTo_finish w outputEnd
  | cons next lines ih =>
    cases next with
    | none => exact h.comesTo_notText outputEnd
    | some line =>
      rw [Session.answerAll]
      split
      case isTrue hblank =>
        rw [askedFrom_blank hblank]
        exact (ih h hend).blank
      case isFalse hline =>
        obtain ⟨hanswer,howns⟩ := h.answer w.refusal (w.files s.served) line
        rw [askedFrom_some hline,answersOf,← hanswer]
        generalize s.answer w.refusal r (w.files s.served) line = answer at howns ⊢
        obtain ⟨response?,r',entries⟩ := answer
        refine ComesTo.logged ?_ entries
        dsimp only at howns ⊢
        cases response? with
        | none => exact howns.comesTo_panicked
        | some response =>
          by_cases hfull : ∃ e, outputEnd = some e ∧ e.room = 0
          · obtain ⟨e,rfl,hroom⟩ := hfull
            have hfilter : w.outputEnd.filter (·.room = s.served) = some (e.farther s.served) := by
              simp [hend,Option.filter,OutputEnd.farther,hroom]
            rw [hfilter]
            exact howns.comesTo_full hroom
          · have hroom : ∀ e ∈ outputEnd, e.room ≠ 0 := fun e he hzero => hfull ⟨e,he,hzero⟩
            have hfilter : w.outputEnd.filter (·.room = s.served) = none := by
              cases outputEnd with
              | none => simp [hend]
              | some e => simp [hend,Option.filter,OutputEnd.farther,hroom e rfl]
            rw [hfilter]
            -- The next line is counted, so the end of the output is one line nearer.
            exact (ih (s := { s with served := s.served+1 }) ⟨howns.fresh,howns.isolates⟩
              (hend.trans (map_farther_behind hroom s.served).symm)).more hroom

/-! ## Whole sessions -/

section
variable {r : Registry} {w w' : World} {input other : List UInt8}

end

/-- What is said of lines that are no JSON. -/
def refusal (_ : String) : String := "key must be a string at line 1 column 2"

/-- A query that is rejected after its catalog is read. -/
def unknownColumn : String := "SELECT x FROM t"

end Session
end QueryPlan
