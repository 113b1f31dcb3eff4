import MarketFeed.Text.Printable

/-!
# Text.Quoted — a text shown between double quotes

Error messages show the offending text so that blanks, quotes and invisible characters can
be told apart: quotes and backslashes are escaped, the common controls have a letter, and
every other character without a glyph of its own is given by its code point, in
hexadecimal digits between braces. A single quote stands for itself.
-/

namespace MarketFeed.Text

def quoteChar (c : Char) : List Char :=
  match c with
  | '"' => ['\\', '"']
  | '\\' => ['\\', '\\']
  | '\n' => ['\\', 'n']
  | '\r' => ['\\', 'r']
  | '\t' => ['\\', 't']
  | _ =>
    if c.toNat = 0 then ['\\', '0']
    else if isPrintable c then [c]
    else ['\\', 'u', '\x7b'] ++ Nat.toDigits 16 c.toNat ++ ['\x7d']

def quote (s : String) : String :=
  String.ofList ('"' :: s.toList.flatMap quoteChar ++ ['"'])

end MarketFeed.Text
