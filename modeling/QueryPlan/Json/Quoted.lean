/-! # JSON strings: quotes, backslashes and control characters escaped, all else as it is -/
namespace QueryPlan.Json

def hexDigit (n : Nat) : Char := "0123456789abcdef".toList.getD n '0'

/-- The written form of one character inside a string. -/
def escapeChar (c : Char) : List Char :=
  match c with
  | '"' => ['\\','"']
  | '\\' => ['\\','\\']
  | '\n' => ['\\','n']
  | '\r' => ['\\','r']
  | '\t' => ['\\','t']
  | '\x08' => ['\\','b']
  | '\x0c' => ['\\','f']
  | c => if c.toNat < 0x20 then
      ['\\','u','0','0',hexDigit (c.toNat/16),hexDigit (c.toNat%16)] else [c]

def quotedChars (s : List Char) : List Char := '"' :: (s.flatMap escapeChar ++ ['"'])

/-- A string between quotes. -/
def quoted (s : String) : String := String.ofList (quotedChars s.toList)

end QueryPlan.Json
