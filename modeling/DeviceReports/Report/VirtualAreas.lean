import DeviceReports.Report

/-!
# The virtual area report

One row per process entry that has an area: its range, its access letters and its offset. On
an architecture with known page-table bits these follow as nine letters.
-/

set_option autoImplicit false

namespace DeviceReports

/-- Whether the integer part has a bit set in its low 32. -/
def Number.hasBit (x : Number) (bit : Nat) : Bool := (x.word32 &&& Int32.ofNat bit) != 0

namespace Report.VirtualAreas

open Column

/-- A letter that stands for one bit: one when it is set, another when it is clear. -/
structure Letter where
  bit : Nat
  on : String
  off : String := "-"

def letters (ls : List Letter) (x : Number) : Text :=
  ls.flatMap fun l => flag (x.hasBit l.bit) l.on l.off

def accessLetters : List Letter :=
  [⟨0x0001, "r", "-"⟩, ⟨0x0002, "w", "-"⟩, ⟨0x0004, "x", "-"⟩, ⟨0x0080, "s", "p"⟩,
    ⟨0x2000, "l", "-"⟩, ⟨0x4000, "i", "-"⟩]

def protectionLetters : List Letter :=
  [⟨0x001, "p", "-"⟩, ⟨0x002, "w", "r"⟩, ⟨0x004, "u", "s"⟩, ⟨0x008, "t", "b"⟩,
    ⟨0x010, "u", "c"⟩, ⟨0x020, "a", "-"⟩, ⟨0x040, "d", "-"⟩, ⟨0x080, "m", "k"⟩,
    ⟨0x100, "g", "l"⟩]

def access (flags : Number) : Text := letters accessLetters flags

def protection (bits : Number) : Text := letters protectionLetters bits

/-- The architectures whose page-table bits are listed. -/
def listedArchitectures : List String := ["ia32", "x64"]

def listsProtection (architecture : String) : Bool := listedArchitectures.contains architecture

def header (d : Device) : Piece :=
  Piece.joined ["vma use count: ", label d.areaCount.number.text, ", high_memory = 0x",
    hex d.highMemory.virtual 16, ", 0x", hex d.highMemory.physical 8, "\n"]

def range (pid : Number) (a : VirtualArea) : Piece :=
  Piece.joined ["\n", decimal pid 5, " 0x", hex a.start 8, "-0x", hex a.stop 8, " ",
    access a.flags, " 0x", hex a.pageOffset 8, "000"]

def row (s : Settings) (e : AreaEntry) : List Piece :=
  match e.area with
  | none => []
  | some a =>
    if listsProtection s.architecture then
      [range e.pid a, Piece.joined [" ", protection a.pageProtection], Piece.newLine]
    else [range e.pid a, Piece.newLine]

def report : Report := ofPieces "vma" true fun s d => header d :: d.areas.flatMap (row s)

end Report.VirtualAreas

end DeviceReports
