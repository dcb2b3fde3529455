import DeviceReports.Report

/-!
# The mapping report

One row per entry that still has a mapping. Slots number the rows, so an entry whose mapping
is gone takes none.
-/

set_option autoImplicit false

namespace DeviceReports.Report.Mappings

open Column

def tags : List (Nat × String) :=
  [(0, "FB"), (1, "REG"), (2, "SHM"), (3, "AGP"), (4, "SG"), (5, "PCI")]

def unknownTag : String := "??"

/-- The tag of a kind of mapping. -/
def tag (kind : Number) : String :=
  match tags.find? fun t => decide ((t.1 : Number) = kind) with
  | some t => t.2
  | none => unknownTag

def header : Piece := "slot     offset       size type flags    address mtrr\n\n"

def row (slot : Nat) (m : Mapping) (userToken : Number) : Piece :=
  Piece.joined [decimal slot 4, " 0x", hex m.offset 8, " 0x", hex m.size 8, " ",
    right (label (tag m.kind)) 4, "  0x", hex m.flags 2, " 0x", hex userToken 8, " "]

def register (m : Mapping) : Piece :=
  if m.mtrr < 0 then "none\n" else Piece.joined [decimal m.mtrr 4, "\n"]

/-- The rows from a slot number on. -/
def rowsFrom : Nat → List MapEntry → List Piece
  | _, [] => []
  | slot, e :: rest =>
    match e.mapping with
    | none => rowsFrom slot rest
    | some m => row slot m e.userToken :: register m :: rowsFrom (slot + 1) rest

def report : Report := ofPieces "vm" true fun _ d => header :: rowsFrom 0 d.maps

end DeviceReports.Report.Mappings
