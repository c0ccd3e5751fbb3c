import Offload.Numeral.Integer
import Offload.Text.Hidden

/-!
# Quoted text

A quoted text stands between double quotes. A quote and a backslash inside it are escaped, the usual
control characters have short escapes, and every other character without a visible form is written
by its code point.
-/

namespace Offload.Text

def escape (c : Char) : String :=
  match c with
  | '\x00' => "\\0"
  | '\t' => "\\t"
  | '\r' => "\\r"
  | '\n' => "\\n"
  | '\\' => "\\\\"
  | '"' => "\\\""
  | c =>
    if isHidden c then "\\u\x7b" ++ Numeral.hexDigits c.toNat ++ "\x7d" else c.toString

def quoted (text : String) : String :=
  "\"" ++ String.join (text.toList.map escape) ++ "\""

/-- Items between an opening and a closing mark, with commas between them. -/
def enclosed (opening closing : String) (items : List String) : String :=
  opening ++ String.intercalate ", " items ++ closing

def bracketed (items : List String) : String := enclosed "[" "]" items

/-- A record: its name and its fields with their values, in braces. -/
def record (name : String) (fields : List (String × String)) : String :=
  name ++ enclosed " \x7b " " \x7d" (fields.map fun field => field.1 ++ ": " ++ field.2)

def optional : Option String → String
  | none => "None"
  | some item => "Some(" ++ item ++ ")"

end Offload.Text
