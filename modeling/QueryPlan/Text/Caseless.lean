/-! # Names compared without regard to ASCII case

Only the letters `A`..`Z` are folded: `É` and `é` stay different names. -/
namespace QueryPlan

/-- Two names that differ at most in the case of ASCII letters. -/
def sameIgnoringCase (a b : String) : Bool := a.toLower == b.toLower

/-- Name comparison of a catalog: exact, or ignoring ASCII case. -/
def sameName (caseSensitive : Bool) (a b : String) : Bool :=
  if caseSensitive then a == b else sameIgnoringCase a b

theorem sameName_refl (cs : Bool) (a : String) : sameName cs a a = true := by
  cases cs <;> simp [sameName,sameIgnoringCase]

theorem sameName_of_common {cs : Bool} {a b q : String} (ha : sameName cs a q) (hb : sameName cs b q) :
    sameName cs a b := by
  cases cs <;> simp_all [sameName,sameIgnoringCase]

end QueryPlan
