import SchemaRegistry.Text.Printable
import SchemaRegistry.Text.Hexadecimal

/-!
# Quoted text

A text is shown to a reader between double quotes and on one line: a quote and a backslash inside it
are marked by a backslash, the usual controls have a letter each, and every other character that is
not printable is shown by its code point in hexadecimal. Nothing that stands between the quotes can
then be taken for the closing quote, and no text spreads over two lines.
-/

namespace SchemaRegistry.Text

/-- The written form of one character inside quotes. The apostrophe is marked only on demand. -/
def quoteChar (marksApostrophe : Bool) (c : Char) : List Char :=
  if c = '"' then ['\\', '"']
  else if c = '\\' then ['\\', '\\']
  else if c = '\x00' then ['\\', '0']
  else if c = '\t' then ['\\', 't']
  else if c = '\n' then ['\\', 'n']
  else if c = '\r' then ['\\', 'r']
  else if c = '\'' then if marksApostrophe then ['\\', '\''] else ['\'']
  else if isPrintable c then [c]
  else ['\\', 'u', '\x7b'] ++ hexDigits c.toNat ++ ['\x7d']

/-- A text in double quotes, as values appear in messages. -/
def quoted (s : String) : String :=
  String.ofList ('"' :: s.toList.flatMap (quoteChar false) ++ ['"'])

/-- The path of a file in double quotes; here an apostrophe is marked as well. -/
def quotedPath (s : String) : String :=
  String.ofList ('"' :: s.toList.flatMap (quoteChar true) ++ ['"'])

end SchemaRegistry.Text
