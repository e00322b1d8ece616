import QueryPlan.Text.HiddenRanges

/-! # Quoted texts in which every character can be seen

Quotes, backslashes, control characters, blanks other than the space, marks that join the
character before them, and characters without a shape of their own are escaped. -/
namespace QueryPlan.Text

def isHidden (c : Char) : Bool := hiddenRanges.any fun r => r.1 ≤ c.toNat && c.toNat ≤ r.2

def escaped (c : Char) : List Char :=
  match c with
  | '"' => ['\\','"']
  | '\\' => ['\\','\\']
  | '\n' => ['\\','n']
  | '\r' => ['\\','r']
  | '\t' => ['\\','t']
  | '\x00' => ['\\','0']
  | c => if isHidden c then
      ['\\','u','\x7b'] ++ Nat.toDigits 16 c.toNat ++ ['\x7d'] else [c]

def quoted (s : String) : String := String.ofList ('"' :: (s.toList.flatMap escaped ++ ['"']))

end QueryPlan.Text
