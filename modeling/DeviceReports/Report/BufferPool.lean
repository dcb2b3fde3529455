import DeviceReports.Number.Power
import DeviceReports.Report

/-!
# The buffer pool report

One row per allocation order that has buffers, then the list index of every buffer, wrapped
into lines of equal length. A device without a pool has an empty report.
-/

set_option autoImplicit false

namespace DeviceReports.Report.BufferPool

open Column

def header : Piece := " o     size count  free  segs pages    kB\n\n"

/-- The pages of a class: those of a segment for each segment. -/
def pages (c : BufferClass) : Number := c.segCount * c.pageOrder.twoTo

def kilobytes (s : Settings) (c : BufferClass) : Number := (pages c * s.pageSize / 1024).floor

def row (s : Settings) (order : Nat) (c : BufferClass) : Piece :=
  Piece.joined [decimal order 2, " ", decimal c.bufSize 8, " ", decimal c.bufCount 5, " ",
    decimal c.freeCount.number 5, " ", decimal c.segCount 5, " ", decimal (pages c) 5, " ",
    decimal (kilobytes s c) 5, "\n"]

/-- The orders from zero up to the highest. -/
def orders (s : Settings) : List Nat :=
  match s.maxOrder.count? with
  | some n => List.range (n + 1)
  | none => []

/-- The class of an order if it has a row, which it has for its buffers. -/
def listed? (pool : DmaPool) (order : Nat) : Option (Nat × BufferClass) :=
  match pool.classAt? order with
  | some c => if c.bufCount = 0 then none else some (order, c)
  | none => none

/-- Whether the buffer at a position begins a new line. -/
def breaksBefore (s : Settings) (index : Nat) : Bool :=
  index != 0 && (index : Number).isMultipleOf s.bufferListWrap

/-- The list indices of the buffers from a position on. -/
def indicesFrom (s : Settings) : Nat → List Number → List Piece
  | _, [] => []
  | i, list :: rest =>
    let entry : Piece := Piece.joined [" ", decimal list 0]
    if breaksBefore s i then Piece.newLine :: entry :: indicesFrom s (i + 1) rest
    else entry :: indicesFrom s (i + 1) rest

def pieces (s : Settings) (pool : DmaPool) : List Piece :=
  let rows := ((orders s).filterMap (listed? pool)).map fun c => row s c.1 c.2
  header :: rows ++ Piece.newLine :: indicesFrom s 0 pool.buffers ++ [Piece.newLine]

def report : Report := ofPieces "bufs" true fun s d =>
  match d.dma with
  | none => []
  | some pool => pieces s pool

end DeviceReports.Report.BufferPool
