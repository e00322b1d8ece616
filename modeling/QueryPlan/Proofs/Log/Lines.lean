import QueryPlan.Log.Entry
import QueryPlan.Proofs.Json.Reading
import QueryPlan.Proofs.Sorting

/-! # Lines of the log

Whatever the texts in an entry are, its line is one JSON object, and the texts are read back from it.
-/
namespace QueryPlan.LogEntry
open Json

/-- The members of a line: event, severity, then the fields in the order of their keys. -/
def members (severity : Severity) (event : String) (fields : List (String × String)) :
    List (String × String) :=
  ("event",event) :: ("severity",severity.name) :: fields.mergeSort (fun a b => a.1 ≤ b.1)

/-- Members whose values are texts. -/
def texts (members : List (String × String)) : List (String × Json) :=
  members.map fun m => (m.1,.text m.2)

theorem recovers_texts (members : List (String × String)) :
    ∀ m ∈ texts members, m.2.Recovers 0 :=
  List.forall_mem_map.2 fun m _ => recovers_text m.2

variable (severity : Severity) (event : String) (fields : List (String × String))

/-- Names of severities need no escapes. -/
theorem quoted_name : quoted severity.name = "\"" ++ severity.name ++ "\"" := by
  cases severity <;> decide +kernel

theorem memberText_text (m : String × String) :
    memberText (m.1,.text m.2) = quoted m.1 ++ ":" ++ quoted m.2 := rfl

theorem joined_cons (a : String) (texts : List String) :
    joined (a :: texts) = a.toList ++ texts.flatMap fun t => ',' :: t.toList := by
  induction texts generalizing a with
  | nil => simp [joined_singleton]
  | cons b texts ih => rw [joined_cons_cons,ih,List.flatMap_cons,List.cons_append]

theorem line_eq : line severity event fields =
    (object (texts (members severity event fields))).written ++ "\n" := by
  have hevent : quoted "event" = "\"event\"" := by decide +kernel
  have hseverity : quoted "severity" = "\"severity\"" := by decide +kernel
  rw [← String.toList_inj,String.toList_append,toList_object,texts,members,List.map_cons,List.map_cons,
    List.map_cons,List.map_cons,joined_cons_cons,joined_cons,memberText_text,memberText_text,hevent,
    hseverity,quoted_name]
  simp [line,String.toList_join,List.flatMap_map,memberText_text]

/-- A line is one line of text, whatever is logged, and holds one JSON object. Its members are read
back as the event, the severity and all the fields in the order of their keys, those of one key as they
were given. The order of fields with different keys does not matter. -/
theorem line_reads_back :
    (∃ body, line severity event fields = body ++ "\n" ∧ '\n' ∉ body.toList) ∧
      (∃ raws sorted, Raw.ofText? (line severity event fields) = some (.object raws) ∧
        membersOf? 0 raws =
          some (texts (("event",event) :: ("severity",severity.name) :: sorted)) ∧
        sorted.Perm fields ∧ sorted.Pairwise (fun a b => a.1 ≤ b.1) ∧
        ∀ key, sorted.filter (·.1 = key) = fields.filter (·.1 = key)) ∧
      ((fields.map Prod.fst).Nodup → ∀ fields', fields'.Perm fields →
        line severity event fields' = line severity event fields) := by
  have hvalues := recovers_texts (members severity event fields)
  refine ⟨⟨_,line_eq severity event fields,fun hmem => ?_⟩,?_,fun hkeys fields' hperm => ?_⟩
  · exact absurd (control_object hvalues _ hmem) (by decide)
  · obtain ⟨raws,hread,hraws⟩ := rawValue_written_object hvalues
    refine ⟨raws,_,?_,hraws 0 (Nat.le_refl 0),List.mergeSort_perm _ _,
      pairwise_mergeSort_le Prod.fst fields,fun key => filter_mergeSort_le Prod.fst key fields⟩
    rw [line_eq]
    exact Raw.ofText?_append hread (by decide +kernel)
  · rw [line_eq,line_eq,members,members,mergeSort_le_of_perm Prod.fst hkeys hperm]

theorem line_of_shuffled :
    ([("table","1"),("database","2"),("isolate","3")].map Prod.fst).Nodup ∧
    [("isolate","3"),("table","1"),("database","2")].Perm
      [("table","1"),("database","2"),("isolate","3")] ∧
    line .info "TEST" [("isolate","3"),("table","1"),("database","2")] =
      line .info "TEST" [("table","1"),("database","2"),("isolate","3")] := by
  have hkeys : ([("table","1"),("database","2"),("isolate","3")].map Prod.fst).Nodup := by decide
  have hperm : [("isolate","3"),("table","1"),("database","2")].Perm
      [("table","1"),("database","2"),("isolate","3")] := by decide
  exact ⟨hkeys,hperm,(line_reads_back .info "TEST" _).2.2 hkeys _ hperm⟩

example : line .trace "PLAN_ENCODED" [("plan","S;a\n"),("a\"","\\")] =
    "\x7b\"event\":\"PLAN_ENCODED\",\"severity\":\"TRACE\",\"a\\\"\":\"\\\\\",\"plan\":\"S;a\\n\"\x7d\n" := by
  cbv

end QueryPlan.LogEntry
