import RegisteredHeap.Text.Hidden

/-! # Quoted text

A text between double quotes with everything written out that would not show: quotes and backslashes
behind a backslash, the common controls by their letter, all other hidden characters by code point.
-/

namespace RegisteredHeap.Text

def quotedChar (c : Char) : List Char :=
  match c with
  | '"' => ['\\', '"']
  | '\\' => ['\\', '\\']
  | '\n' => ['\\', 'n']
  | '\r' => ['\\', 'r']
  | '\t' => ['\\', 't']
  | '\x00' => ['\\', '0']
  | _ =>
    if isHidden c then ['\\', 'u', '\x7b'] ++ Nat.toDigits 16 c.toNat ++ ['\x7d'] else [c]

def quoted (s : String) : String :=
  String.ofList ('"' :: (s.toList.flatMap quotedChar ++ ['"']))

end RegisteredHeap.Text
