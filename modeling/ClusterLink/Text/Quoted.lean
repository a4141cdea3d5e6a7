import ClusterLink.Text.Hidden

/-! Quoted text: a text between double quotes, on one line and free of hidden characters. The
quote and the backslash get a backslash, four control characters have names of their own, every
other hidden character is spelled `\u{hex}`, and all else stands as it is. -/

namespace ClusterLink.Text

/-- The spelling of one character between double quotes. -/
def escape (c : Char) : List Char :=
  if c = '\x00' then ['\\', '0']
  else if c = '\t' then ['\\', 't']
  else if c = '\n' then ['\\', 'n']
  else if c = '\r' then ['\\', 'r']
  else if c = '"' then ['\\', '"']
  else if c = '\\' then ['\\', '\\']
  else if isHidden c then ['\\', 'u', '\x7b'] ++ Nat.toDigits 16 c.toNat ++ ['\x7d']
  else [c]

def quoted (text : String) : String :=
  String.ofList ('"' :: text.toList.flatMap escape ++ ['"'])

end ClusterLink.Text
