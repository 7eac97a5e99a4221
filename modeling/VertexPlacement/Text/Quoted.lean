import VertexPlacement.Text.Printable

namespace VertexPlacement.Text

def hex (width n : Nat) : List Char :=
  let digits := Nat.toDigits 16 n
  List.replicate (width - digits.length) '0' ++ digits

def escape (c : Char) : List Char :=
  if c.toNat < 0x100 then '\\' :: 'x' :: hex 2 c.toNat
  else if c.toNat < 0x10000 then '\\' :: 'u' :: hex 4 c.toNat
  else '\\' :: 'U' :: hex 8 c.toNat

/-- Quotes are single ones, and double ones for a word that holds a single one only. -/
def quoteFor (cs : List Char) : Char :=
  let single := Char.ofNat 39
  if cs.contains single && !cs.contains '"' then '"' else single

def quoted (s : String) : String :=
  let q := quoteFor s.toList
  let body := s.toList.flatMap fun c =>
    if c = q || c = '\\' then ['\\', c]
    else if c = '\n' then ['\\', 'n']
    else if c = '\t' then ['\\', 't']
    else if c = '\r' then ['\\', 'r']
    else if isPrintable c then [c]
    else escape c
  String.ofList (q :: body ++ [q])

end VertexPlacement.Text
