import MappedSql.Text.Ranges

/-!
# Blank characters

`isBlank` is the Unicode property `White_Space`. Trimming removes blank characters from
one or both ends; a text is blank when nothing else is in it.
-/

namespace MappedSql.Text

def blankRanges : Ranges :=
  [(0x9, 0xd), (0x20, 0x20), (0x85, 0x85), (0xa0, 0xa0), (0x1680, 0x1680), (0x2000, 0x200a),
   (0x2028, 0x2029), (0x202f, 0x202f), (0x205f, 0x205f), (0x3000, 0x3000)]

def isBlank (c : Char) : Bool :=
  blankRanges.contains c.toNat

def trimStart (s : List Char) : List Char :=
  s.dropWhile isBlank

def trimEnd (s : List Char) : List Char :=
  s.foldr (fun c rest => if rest.isEmpty && isBlank c then [] else c :: rest) []

def trim (s : List Char) : List Char :=
  trimEnd (trimStart s)

def trimmed (s : String) : String :=
  String.ofList (trim s.toList)

def allBlank (s : List Char) : Bool :=
  s.all isBlank

end MappedSql.Text
