import DeviceReports.Cat.Yaml.Place
import DeviceReports.Failure
import DeviceReports.Text.Utf8

/-!
# YAML documents

A document is a scalar, a sequence or a mapping. Collections are written in blocks, whose
nesting is the indentation, or in flow between brackets and braces; a JSON text is a document
in flow. Every nested reading has consumed something or stands one level deeper, so the
length of the text bounds the depth.
-/

set_option autoImplicit false

namespace DeviceReports.Cat.Yaml

/-- A comma or a closing mark, before which a value in flow may be left out. -/
def endsEntry : List Char → Bool
  | [] => true
  | c :: _ => c = ',' || c = ']' || c = '}'

mutual

/-- The value in flow that begins at this place. -/
def flowValue : Nat → Place → Option (Value × Place)
  | 0, _ => none
  | depth + 1, p =>
    match p.rest with
    | '{' :: _ => flowFields depth [] (p.advance 1)
    | '[' :: _ => flowItems depth [] (p.advance 1)
    | _ => p.scalar true 0 depth

/-- The items of a sequence in flow, after those in `done`, latest first. An item with a colon
behind it is a mapping of one field. -/
def flowItems : Nat → List Value → Place → Option (Value × Place)
  | 0, _, _ => none
  | depth + 1, done, p =>
    let here := p.settle
    match here.rest with
    | [] => none
    | ']' :: _ => some (.list done.reverse, here.advance 1)
    | ',' :: _ => flowItems depth done (here.advance 1)
    | _ => do
      let (v, after) ← flowValue depth here
      match after.settle.rest with
      | ':' :: _ =>
        let (w, after) ← flowField depth after.settle
        flowItems depth (.record [(keyText v, w)] :: done) after
      | _ => flowItems depth (v :: done) after

/-- The fields of a mapping in flow, after those in `done`, latest first. -/
def flowFields : Nat → List (String × Value) → Place → Option (Value × Place)
  | 0, _, _ => none
  | depth + 1, done, p =>
    let here := p.settle
    match here.rest with
    | [] => none
    | '}' :: _ => some (Value.ofPairs done.reverse, here.advance 1)
    | ',' :: _ => flowFields depth done (here.advance 1)
    | _ => do
      let (key, after) ← here.scalar true 0 depth
      let (v, after) ← flowField depth after.settle
      flowFields depth ((keyText key, v) :: done) after

/-- The value behind a key in flow; a key alone has none. -/
def flowField : Nat → Place → Option (Value × Place)
  | 0, _ => none
  | depth + 1, p =>
    match p.rest with
    | ':' :: _ =>
      let next := (p.advance 1).settle
      if endsEntry next.rest then some (.null, next) else flowValue depth next
    | _ => some (.null, p)

end

/-- A value that begins at this place and is no block: a scalar or a collection in flow. -/
def leaf (depth least : Nat) (p : Place) : Option (Value × Place) :=
  if p.opensFlow then flowValue depth p else p.scalar false least depth

mutual

/-- The value behind a key or a dash. On a line of its own it stands at or behind the column
`least`, or `dash` for a sequence; on the same line it is a block only where `compact`. -/
def blockValue : Nat → Nat → Nat → Bool → Place → Option (Value × Place)
  | 0, _, _, _, _ => none
  | depth + 1, least, dash, compact, p =>
    let here := p.skipGaps
    if atLineEnd here.rest || startsComment here.rest then
      let next := here.settle
      if !next.rest.isEmpty && !next.atBoundary
        && (decide (least ≤ next.column) || (next.atDash && decide (dash ≤ next.column))) then
        block depth least next
      else some (.null, next)
    else if compact then block depth least here
    else leaf depth least here

/-- The block that begins at this place. -/
def block : Nat → Nat → Place → Option (Value × Place)
  | 0, _, _ => none
  | depth + 1, least, p =>
    if p.atDash then blockItems depth p.column [] p
    else if p.key?.isSome then blockFields depth p.column [] p
    else leaf depth least p

/-- The items of a sequence at a column, after those in `done`, latest first. -/
def blockItems : Nat → Nat → List Value → Place → Option (Value × Place)
  | 0, _, _, _ => none
  | depth + 1, column, done, p =>
    if p.atDash && p.column == column then do
      let (v, after) ← blockValue depth (column + 1) (column + 1) true (p.advance 1)
      blockItems depth column (v :: done) after.settle
    else some (.list done.reverse, p)

/-- The fields of a mapping at a column, after those in `done`, latest first. -/
def blockFields : Nat → Nat → List (String × Value) → Place → Option (Value × Place)
  | 0, _, _, _ => none
  | depth + 1, column, done, p =>
    if p.column ≠ column ∨ p.rest.isEmpty then some (Value.ofPairs done.reverse, p)
    else
      match p.key? with
      | none => some (Value.ofPairs done.reverse, p)
      | some (key, after) => do
        let (v, after) ← blockValue depth (column + 1) column false after
        blockFields depth column ((key, v) :: done) after.settle

end

/-- Nothing but comments. -/
def isVoid (p : Place) : Bool := p.settle.rest.isEmpty

/-- The value of a document, which a byte-order mark and an opening boundary may precede. Behind
it stands nothing, or a closing boundary and comments. -/
def document? (cs : List Char) : Option Value := do
  let cs := unifyBreaks (Text.dropMark cs)
  let start := Place.settle ⟨cs, 0⟩
  let start := if start.atMark '-' then start.advance 3 else start
  let (v, after) ←
    if start.atMark '.' then some (.null, start)
    else blockValue (3 * cs.length + 8) 0 0 true start
  let after := after.settle
  if isVoid (if after.atMark '.' then after.advance 3 else after) then pure v else none

/-- Reads a document; a text that is none is refused. -/
def read (text : String) : Except Failure Value :=
  match document? text.toList with
  | some v => .ok v
  | none => .error (.plain "Malformed document")

end DeviceReports.Cat.Yaml
