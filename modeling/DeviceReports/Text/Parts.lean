/-!
# Parts of a text

The parts that marks divide a text into. A text without a mark is one part.
-/

set_option autoImplicit false

namespace DeviceReports.Text

/-- The parts of a text between the marks; an empty text is one empty part. -/
def parts (mark : Char) : List Char → List (List Char)
  | [] => [[]]
  | c :: cs =>
    match parts mark cs with
    | [] => [[c]]
    | part :: others => if c = mark then [] :: part :: others else (c :: part) :: others

end DeviceReports.Text
