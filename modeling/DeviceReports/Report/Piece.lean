import DeviceReports.Column

/-!
# Pieces

A report is printed in pieces. A piece is a text, or the failure met in formatting it; a row
is one piece made of columns, so a failing column leaves out its whole row.
-/

set_option autoImplicit false

namespace DeviceReports

abbrev Piece := Except Failure Text

namespace Piece

instance : Coe Text Piece := ⟨.ok⟩

instance : Coe String Piece := ⟨fun s => .ok (Text.ofString s)⟩

def newLine : Piece := "\n"

/-- The columns of a row one after the other, or the first failure among them. -/
def joined : List Piece → Piece
  | [] => .ok []
  | p :: rest => do
    let t ← p
    let others ← joined rest
    pure (t ++ others)

end Piece

end DeviceReports
