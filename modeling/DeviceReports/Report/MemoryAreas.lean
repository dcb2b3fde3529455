import DeviceReports.Report

/-!
# The memory tracker report

Two summary rows for the machine's memory in kilobytes, then one row per area: what was
allocated and freed, and what is outstanding.
-/

set_option autoImplicit false

namespace DeviceReports.Report.MemoryAreas

open Column

def blanks (n : Nat) : Text := List.replicate n space

def title : Piece :=
  Piece.joined [blanks 19, "total counts", blanks 18, "|    outstanding\n"]

def header : Piece :=
  Piece.joined [left (label "type") 9,
    " alloc freed fail      bytes      freed | allocs      bytes\n\n"]

/-- A row of the machine's memory, which is not counted by allocation. -/
def summary (name : String) (kilobytes : Number) : Piece :=
  Piece.joined [left (label name) 9, " ", decimal 0 5, " ", decimal 0 5, " ", decimal 0 4, " ",
    decimal kilobytes 10, " kB         |\n"]

def row (a : MemoryArea) : Piece :=
  Piece.joined [left (label a.name) 9, " ", decimal a.succeedCount 5, " ", decimal a.freeCount 5,
    " ", decimal a.failCount 4, " ", decimal a.bytesAllocated 10, " ", decimal a.bytesFreed 10,
    " | ", decimal (a.succeedCount - a.freeCount) 6, " ",
    decimal (a.bytesAllocated - a.bytesFreed) 10, "\n"]

def systemKilobytes (s : Settings) (t : MemoryTracker) : Number :=
  (t.ramAvailablePages * s.pageSize / 1024).floor

def lockedKilobytes (t : MemoryTracker) : Number := (t.ramUsedBytes / 1024).floor

/-- The tracker owns its figures, so the report does not take the device's lock. -/
def report : Report := ofPieces "mem" false fun s d =>
  let t := d.memoryTracker
  [title, header, summary "system" (systemKilobytes s t), summary "locked" (lockedKilobytes t),
    Piece.newLine] ++ t.areas.map row

end DeviceReports.Report.MemoryAreas
