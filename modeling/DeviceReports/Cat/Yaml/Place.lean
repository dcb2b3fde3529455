import DeviceReports.Cat.Yaml.Scalar

/-!
# Places in a YAML document

A place is what remains of a document and the column it begins in. A scalar is read at a place.
A plain one goes on over the following lines, as long as they begin with text at or behind a
column: a comment, a key mark, a mark of the flow or a boundary of the document ends it.
-/

set_option autoImplicit false

namespace DeviceReports.Cat.Yaml

/-- A place in a document: the text from there on, and its column. -/
structure Place where
  rest : List Char
  column : Nat := 0

/-- Nothing more on this line. -/
def atLineEnd : List Char → Bool
  | [] => true
  | c :: _ => c = '\n'

/-- A gap, a line break or the end of the document. -/
def atGap : List Char → Bool
  | [] => true
  | c :: _ => isGap c || c = '\n' || c = '\r'

def isFlowMark (c : Char) : Bool := c = ',' || c = '[' || c = ']' || c = '{' || c = '}'

/-- Whether what follows a colon makes it the end of a key. -/
def endsKey (inFlow : Bool) (rest : List Char) : Bool :=
  atGap rest || (inFlow && (rest.head?.map isFlowMark).getD false)

def startsComment : List Char → Bool
  | c :: _ => c = '#'
  | [] => false

/-- How many characters of one line belong to a plain scalar, trailing gaps included. -/
def plainLength (inFlow : Bool) : List Char → Nat
  | [] => 0
  | c :: rest =>
    if c = '\n' || (c = ':' && endsKey inFlow rest) || (inFlow && isFlowMark c)
      || (isGap c && startsComment rest) then 0
    else 1 + plainLength inFlow rest

/-- The text without the gaps at its end. -/
def dropTrailingGaps (cs : List Char) : List Char := (cs.reverse.dropWhile isGap).reverse

/-- What one line holds of a plain scalar, without its trailing gaps. -/
def plain (inFlow : Bool) (cs : List Char) : List Char :=
  dropTrailingGaps (cs.take (plainLength inFlow cs))

namespace Place

/-- Goes on within a line. -/
def advance (p : Place) (count : Nat) : Place := ⟨p.rest.drop count, p.column + count⟩

/-- A place behind something that began further up, and so not at the start of a line. -/
def inLine (rest : List Char) : Place := ⟨rest, 1⟩

def skipGaps (p : Place) : Place := p.advance (p.rest.takeWhile isGap).length

/-- Goes over gaps and so many breaks to the next text, which may be a comment. -/
def nextText (breaks column : Nat) : List Char → Nat × Place
  | [] => (breaks, ⟨[], 0⟩)
  | c :: rest =>
    if c = '\n' then nextText (breaks + 1) 0 rest
    else if isGap c then nextText breaks (column + 1) rest
    else (breaks, ⟨c :: rest, column⟩)

/-- The next token at or behind a column: gaps, line breaks and comments are passed over. -/
def settleFrom (column : Nat) (inComment : Bool) : List Char → Place
  | [] => ⟨[], 0⟩
  | c :: rest =>
    if c = '\n' then settleFrom 0 false rest
    else if inComment || isGap c || c = '\r' then settleFrom (column + 1) inComment rest
    else if c = '#' then settleFrom (column + 1) true rest
    else ⟨c :: rest, column⟩

def settle (p : Place) : Place := settleFrom p.column false p.rest

/-- A dash that begins an item. -/
def atDash (p : Place) : Bool :=
  match p.rest with
  | c :: rest => c = '-' && atGap rest
  | [] => false

/-- Three marks at the start of a line that stand for a boundary of the document. -/
def atMark (mark : Char) (p : Place) : Bool :=
  match p.rest with
  | a :: b :: c :: rest => p.column == 0 && a = mark && b = mark && c = mark && atGap rest
  | _ => false

def atBoundary (p : Place) : Bool := p.atMark '-' || p.atMark '.'

/-- A bracket or brace that begins a collection in flow. -/
def opensFlow (p : Place) : Bool :=
  match p.rest with
  | c :: _ => c = '{' || c = '['
  | [] => false

/-- Whether a plain scalar goes on with the line that begins here. -/
def continues (inFlow : Bool) (least : Nat) (p : Place) : Bool :=
  decide (least ≤ p.column) && !startsComment p.rest && !p.atBoundary
    && decide (0 < plainLength inFlow p.rest)

/-- The plain scalar at this place, folded, and what follows it; `lines` bounds its lines. -/
def plainLines (inFlow : Bool) (least : Nat) : Nat → Place → List Char × Place
  | 0, p => ([], p)
  | lines + 1, p =>
    let text := plain inFlow p.rest
    let after := p.advance text.length
    let (breaks, next) := nextText 0 after.column after.rest
    if 0 < breaks && next.continues inFlow least then
      let (more, after) := plainLines inFlow least lines next
      (text ++ joint breaks ++ more, after)
    else (text, after)

/-- The scalar at this place and what follows it. Its further lines stand at or behind the
column `least`, and `lines` bounds their number. -/
def scalar (inFlow : Bool) (least lines : Nat) (p : Place) : Option (Value × Place) :=
  match quoted? p.rest with
  | some found => found.map fun (s, rest) => (.string s, inLine rest)
  | none =>
    let (text, after) := plainLines inFlow least lines p
    some (resolve text, after)

/-- The key that stands on this line, and what follows its colon. -/
def key? (p : Place) : Option (String × Place) :=
  if p.opensFlow then none
  else do
    let line := p.rest.takeWhile (· ≠ '\n')
    let (key, after) ← scalar false 0 1 ⟨line, p.column⟩
    match after.rest.dropWhile isGap with
    | ':' :: rest =>
      if atGap rest then pure (keyText key, p.advance (line.length - rest.length)) else none
    | _ => none

end Place

end DeviceReports.Cat.Yaml
