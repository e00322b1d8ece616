import QueryPlan.Log.Entry

/-! # Work that logs

A logger writes the entries that reach its minimum. Work may ask it whether a severity is written at
all and leave entries out for it. If nothing else hangs on the answer, the work has one value and one
list of entries, of which the logger writes those that reach its minimum. -/
namespace QueryPlan

/-- The minimum severity and the entries written so far. -/
structure Logger where
  minimum : Severity
  written : List LogEntry
deriving DecidableEq,Repr

/-- Work with a logger at hand. -/
abbrev Logging := StateM Logger

namespace Logger

def enabled (s : Severity) : Logging Bool := return s.reaches (← get).minimum

/-- Writes an entry unless it is below the minimum. -/
def log (e : LogEntry) : Logging Unit := do
  if ← enabled e.severity then modify fun l => { l with written := l.written ++ [e] }

/-- Work that is left out where its entries would not be written. -/
def whenEnabled (s : Severity) (x : Logging Unit) : Logging Unit := do
  if ← enabled s then x

/-- The logger after some entries. -/
def receive (l : Logger) (entries : List LogEntry) : Logger :=
  { l with written := l.written ++ entries.filter fun e => e.severity.reaches l.minimum }

@[simp] theorem receive_nil (l : Logger) : l.receive [] = l := by simp [receive]

theorem receive_append (l : Logger) (es fs : List LogEntry) :
    l.receive (es ++ fs) = (l.receive es).receive fs := by
  simp [receive]

theorem receive_of_forall_not {l : Logger} {es : List LogEntry}
    (h : ∀ e ∈ es, ¬ e.severity.reaches l.minimum) : l.receive es = l := by
  rw [receive,List.filter_eq_nil_iff.2 h,List.append_nil]

theorem run_log (e : LogEntry) (l : Logger) : (log e).run l = ((),l.receive [e]) := by
  change (if e.severity.reaches l.minimum then _ else _ : Logging Unit).run l = _
  cases h : e.severity.reaches l.minimum <;> simp [receive,h] <;> rfl

theorem run_whenEnabled (s : Severity) (x : Logging Unit) (l : Logger) :
    (whenEnabled s x).run l = if s.reaches l.minimum then x.run l else ((),l) := by
  change (if s.reaches l.minimum then x else pure () : Logging Unit).run l = _
  split <;> rfl

end Logger

/-- Whatever the logger is, the work has this value and hands over these entries. -/
def Logs {α : Type} (x : Logging α) (outcome : α × List LogEntry) : Prop :=
  ∀ l : Logger, x.run l = (outcome.1,l.receive outcome.2)

namespace Logs
variable {α β : Type} {a : α} {b : β} {e : LogEntry} {es fs : List LogEntry}

theorem pure (a : α) : Logs (Pure.pure a) (a,[]) := fun l => by
  rw [Logger.receive_nil]
  rfl

theorem bind {x : Logging α} {f : α → Logging β} (hx : Logs x (a,es)) (hf : Logs (f a) (b,fs)) :
    Logs (x >>= f) (b,es ++ fs) := fun l => by
  rw [StateT.run_bind,hx l,Logger.receive_append]
  exact hf _

/-- What is done with a value without logging anything. -/
theorem bind_pure {x : Logging α} {f : α → Logging β} (hx : Logs x (a,es))
    (hf : f a = Pure.pure b) : Logs (x >>= f) (b,es) := by
  have hbind : Logs (x >>= f) (b,es ++ []) := hx.bind (hf ▸ .pure b)
  rwa [List.append_nil] at hbind

theorem log (e : LogEntry) : Logs (Logger.log e) ((),[e]) := Logger.run_log e

theorem log_bind {f : Unit → Logging β} (hf : Logs (f ()) (b,fs)) :
    Logs (Logger.log e >>= f) (b,e :: fs) := (log e).bind hf

/-- A check may be made in advance for entries that are no more severe than what is asked for. -/
theorem whenEnabled {s : Severity} {x : Logging Unit} (hx : Logs x ((),es))
    (hes : ∀ e ∈ es, e.severity.rank ≤ s.rank) :
    Logs (Logger.whenEnabled s x) ((),es) := fun l => by
  rw [Logger.run_whenEnabled]
  split
  case isTrue h => exact hx l
  case isFalse h =>
    have hbelow : ∀ e ∈ es, ¬ e.severity.reaches l.minimum := by
      intro e he
      have hrank := hes e he
      simp only [Severity.reaches,decide_eq_true_eq] at h ⊢
      omega
    rw [Logger.receive_of_forall_not hbelow]

theorem check_bind {s : Severity} {f : Unit → Logging β} (he : e.severity = s)
    (hf : Logs (f ()) (b,fs)) : Logs (Logger.whenEnabled s (Logger.log e) >>= f) (b,e :: fs) :=
  ((log e).whenEnabled (by simp [he])).bind hf

/-- Two runs at different minimum severities have one value, and the one at the higher minimum writes
what the other one writes and reaches it. -/
theorem filter_written {x : Logging α} (hx : Logs x (a,es)) {lo hi : Severity} (h : lo.rank ≤ hi.rank) :
    (x.run ⟨hi,[]⟩).1 = (x.run ⟨lo,[]⟩).1 ∧ (x.run ⟨hi,[]⟩).2.written =
      (x.run ⟨lo,[]⟩).2.written.filter fun e => e.severity.reaches hi := by
  rw [hx,hx]
  refine ⟨rfl,?_⟩
  -- What reaches the higher minimum has reached the lower one, so filtering twice drops nothing more.
  have hreaches : ∀ e : LogEntry, (e.severity.reaches hi && e.severity.reaches lo) =
      e.severity.reaches hi := by
    intro e
    simp only [Severity.reaches,Bool.and_eq_left_iff_imp,decide_eq_true_eq]
    omega
  simp [Logger.receive,List.filter_filter,hreaches]

end Logs
end QueryPlan
