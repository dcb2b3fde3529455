/-!
# Folding

A scalar written over several lines is folded into one text. The gaps around a line break are
dropped; a single break is a blank, and of several breaks in a row all but one stay.
-/

set_option autoImplicit false

namespace DeviceReports.Cat.Yaml

def isGap (c : Char) : Bool := c = ' ' || c = '\t'

/-- Ends every line in a line feed alone. -/
def unifyBreaks : List Char → List Char
  | [] => []
  | '\r' :: '\n' :: rest => '\n' :: unifyBreaks rest
  | c :: rest => c :: unifyBreaks rest

/-- The text that stands for line breaks in a row. -/
def joint (breaks : Nat) : List Char :=
  if breaks ≤ 1 then [' '] else List.replicate (breaks - 1) '\n'

/-- The text between two characters that are not blank: the gaps between them, latest first, or
what stands for the breaks. -/
def between (breaks : Nat) (gaps : List Char) : List Char :=
  if breaks = 0 then gaps.reverse else joint breaks

/-- Folds a text behind so many breaks and such gaps, latest first. -/
def foldFrom (breaks : Nat) (gaps : List Char) : List Char → List Char
  | [] => between breaks gaps
  | c :: rest =>
    if c = '\n' then foldFrom (breaks + 1) [] rest
    else if isGap c then foldFrom breaks (c :: gaps) rest
    else between breaks gaps ++ c :: foldFrom 0 [] rest

/-- Folds the lines of a text. -/
def fold (cs : List Char) : List Char := foldFrom 0 [] cs

end DeviceReports.Cat.Yaml
