/-! Quoted texts and byte sequences: one escape per character or byte, between single quotes. -/

namespace Misfit

namespace Quoted

/-- A character inside single quotes; line breaks and tabs are named, all else stands for itself. -/
def escapeChar (c : Char) : String :=
  match c with
  | '\\' => "\\\\"
  | '\'' => "\\'"
  | '\n' => "\\n"
  | '\r' => "\\r"
  | '\t' => "\\t"
  | c => String.singleton c

/-- A digit of base sixteen, in lower case. -/
def hexDigit (n : Nat) : Char := Nat.digitChar n

/-- A byte inside single quotes: as its printable character, else as two digits of base sixteen. -/
def escapeByte (byte : UInt8) : String :=
  let c := Char.ofNat byte.toNat
  if c = '\\' ∨ c = '\'' ∨ c = '\n' ∨ c = '\r' ∨ c = '\t' then escapeChar c
  else if 32 ≤ byte.toNat ∧ byte.toNat ≤ 126 then String.singleton c
  else String.ofList ['\\', 'x', hexDigit (byte.toNat / 16), hexDigit (byte.toNat % 16)]

/-- A text between single quotes. -/
def text (s : String) : String := "'" ++ String.join (s.toList.map escapeChar) ++ "'"

/-- A byte sequence between single quotes, marked by the letter before them. -/
def bytes (bs : List UInt8) : String := "b'" ++ String.join (bs.map escapeByte) ++ "'"

end Quoted

end Misfit
