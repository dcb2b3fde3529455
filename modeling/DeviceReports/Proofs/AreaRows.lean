import DeviceReports.Proofs.PageSizes
import DeviceReports.Proofs.PlainReports

/-!
# Virtual areas read back

The report on virtual areas is a heading and, for each entry that has an area, an empty line and a
row. A row gives back the figures of its entry, however wide they are, and the binary digits that
its letters stand for. The letters are chosen by a test of 32-bit words, which sees the lowest
digits of an exact integer whatever is above them.
-/

set_option autoImplicit false

namespace DeviceReports

open Text (Bytes)

namespace Number

/-- The binary digit of a count at a place. -/
def digitAt (x : Number) (place : Nat) : Bool := (x.count?.getD 0).testBit place

/-- The test of a bit within a word tells the digit of the exact integer. -/
theorem hasBit_eq_digitAt {x : Number} (count : x.IsCount) {place : Nat} (within : place < 32) :
    x.hasBit (2 ^ place) = x.digitAt place := by
  obtain ⟨n, hn⟩ := Option.isSome_iff_exists.mp count
  have hdigit : x.digitAt place = n.testBit place := by rw [digitAt, hn, Option.getD_some]
  obtain ⟨rfl, -⟩ := eq_ofCount_of_count? hn
  have hword : (ofCount n).word32 = Int32.ofInt n := by
    have hcast : ofCount n = .finite ((n : Int) : Rat) := by rw [ofCount, Int.cast_natCast]
    rw [hcast, word32_intCast]
  have hmask : (Int32.ofNat (2 ^ place)).toBitVec = BitVec.twoPow 32 place := by
    apply BitVec.eq_of_toNat_eq
    rw [BitVec.toNat_twoPow]
    rfl
  have hpositive : BitVec.twoPow 32 place ≠ 0#32 := by
    intro h
    have hpow := congrArg BitVec.toNat h
    rw [BitVec.toNat_twoPow_of_lt within] at hpow
    exact Nat.two_pow_pos place |>.ne' hpow
  have hzero : Int32.ofInt n &&& Int32.ofNat (2 ^ place) = 0 ↔ n.testBit place = false := by
    have hbit : (BitVec.ofNat 32 n).getLsbD place = n.testBit place := by
      rw [BitVec.getLsbD_ofNat, decide_eq_true within, Bool.true_and]
    rw [← Int32.toBitVec_inj, Int32.toBitVec_and, Int32.toBitVec_ofInt, BitVec.ofInt_natCast, hmask,
      BitVec.and_twoPow, hbit]
    constructor
    · intro h
      by_contra hset
      rw [if_pos (Bool.eq_true_of_not_eq_false hset)] at h
      exact hpositive h
    · intro hclear
      rw [hclear]
      rfl
  rw [hdigit, hasBit, hword]
  cases hset : n.testBit place with
  | false => simp [hzero.mpr hset]
  | true =>
    have hnonzero := mt hzero.mp (by simp [hset])
    simp [hnonzero]

end Number

structure VirtualArea.Counted (a : VirtualArea) : Prop where
  start : a.start.IsCount
  stop : a.stop.IsCount
  flags : a.flags.IsCount
  pageOffset : a.pageOffset.IsCount
  pageProtection : a.pageProtection.IsCount

/-- An entry whose figures are all counts. -/
def AreaEntry.Counted (e : AreaEntry) : Prop := e.pid.IsCount ∧ ∀ a, e.area = some a → a.Counted

namespace Report.VirtualAreas

open Column

/-! ### Letters -/

/-- A letter of a row: the place of the binary digit that it tells, and how it shows that digit. -/
structure Sign where
  place : Nat
  set : Char
  clear : Char

def accessSigns : List Sign :=
  [⟨0, 'r', '-'⟩, ⟨1, 'w', '-'⟩, ⟨2, 'x', '-'⟩, ⟨7, 's', 'p'⟩, ⟨13, 'l', '-'⟩, ⟨14, 'i', '-'⟩]

def protectionSigns : List Sign :=
  [⟨0, 'p', '-'⟩, ⟨1, 'w', 'r'⟩, ⟨2, 'u', 's'⟩, ⟨3, 't', 'b'⟩, ⟨4, 'u', 'c'⟩, ⟨5, 'a', '-'⟩,
    ⟨6, 'd', '-'⟩, ⟨7, 'm', 'k'⟩, ⟨8, 'g', 'l'⟩]

/-- The digit that a unit shows. -/
def Sign.read? (g : Sign) (u : UInt16) : Option Bool :=
  if Text.ofChar g.set = [u] then some true
  else if Text.ofChar g.clear = [u] then some false
  else none

/-- The digits that a word shows, which has a letter for each of them and no other. -/
def readSigns : List Sign → Text → Option (List Bool)
  | [], [] => some []
  | g :: gs, u :: t => do
    let digit ← g.read? u
    let digits ← readSigns gs t
    pure (digit :: digits)
  | _, _ => none

/-- The letter that is printed for a sign. -/
def Sign.letter (g : Sign) : Letter where
  bit := 2 ^ g.place
  on := String.ofList [g.set]
  off := String.ofList [g.clear]

/-- A sign whose two letters are told apart, each by one unit, and whose place is within a word. -/
def Sign.Clear (g : Sign) : Prop :=
  g.place < 32 ∧ Text.ofChar g.set ≠ Text.ofChar g.clear ∧
    (Text.ofChar g.set).length = 1 ∧ (Text.ofChar g.clear).length = 1

instance (g : Sign) : Decidable g.Clear := inferInstanceAs (Decidable (_ ∧ _))

theorem accessLetters_eq : accessLetters = accessSigns.map Sign.letter := rfl

theorem protectionLetters_eq : protectionLetters = protectionSigns.map Sign.letter := rfl

/-- The letter of a digit reads as that digit. -/
theorem Sign.Clear.read?_flag {g : Sign} (clear : g.Clear) (digit : Bool) :
    ∃ u, flag digit g.letter.on g.letter.off = [u] ∧ g.read? u = some digit := by
  obtain ⟨-, hapart, hset, hclear⟩ := clear
  have hlabel (c : Char) : label (String.ofList [c]) = Text.ofChar c := by
    rw [label, Text.ofString, String.toList_ofList, Text.ofChars, List.flatMap_singleton]
  cases digit with
  | true =>
    obtain ⟨u, hu⟩ := List.length_eq_one_iff.mp hset
    refine ⟨u, (hlabel g.set).trans hu, ?_⟩
    rw [Sign.read?, if_pos hu]
  | false =>
    obtain ⟨u, hu⟩ := List.length_eq_one_iff.mp hclear
    refine ⟨u, (hlabel g.clear).trans hu, ?_⟩
    rw [Sign.read?, if_neg (hu ▸ hapart), if_pos hu]

theorem letters_cons {g : Sign} (clear : g.Clear) (rest : List Letter) (x : Number) :
    ∃ u, letters (g.letter :: rest) x = u :: letters rest x ∧
      g.read? u = some (x.hasBit g.letter.bit) := by
  obtain ⟨u, hflag, hread⟩ := clear.read?_flag (x.hasBit g.letter.bit)
  refine ⟨u, ?_, hread⟩
  rw [letters, List.flatMap_cons, hflag]
  rfl

/-- The letters of a count tell its digits. -/
theorem readSigns_letters {signs : List Sign} (clear : ∀ g ∈ signs, g.Clear) {x : Number}
    (count : x.IsCount) :
    readSigns signs (letters (signs.map Sign.letter) x) =
      some (signs.map fun g => x.digitAt g.place) := by
  induction signs with
  | nil => rfl
  | cons g rest ih =>
    obtain ⟨hfirst, hrest⟩ := List.forall_mem_cons.mp clear
    obtain ⟨u, hletters, hread⟩ := letters_cons hfirst (rest.map Sign.letter) x
    have hbit : x.hasBit g.letter.bit = x.digitAt g.place :=
      Number.hasBit_eq_digitAt count hfirst.1
    rw [List.map_cons, hletters, readSigns, hread, ih hrest, hbit]
    rfl

theorem clear_signs : ∀ g ∈ accessSigns ++ protectionSigns, g.Clear := by decide

theorem readSigns_access {x : Number} (count : x.IsCount) :
    readSigns accessSigns (access x) = some (accessSigns.map fun g => x.digitAt g.place) := by
  rw [access, accessLetters_eq]
  exact readSigns_letters (fun g hg => clear_signs g (List.mem_append_left _ hg)) count

theorem readSigns_protection {x : Number} (count : x.IsCount) :
    readSigns protectionSigns (protection x) =
      some (protectionSigns.map fun g => x.digitAt g.place) := by
  rw [protection, protectionLetters_eq]
  exact readSigns_letters (fun g hg => clear_signs g (List.mem_append_right _ hg)) count

/-- A word of letters has no space in it. -/
theorem graphic_letters {ls : List Letter}
    (graphic : ∀ l ∈ ls, (label l.on).Graphic ∧ (label l.off).Graphic) (x : Number) :
    (letters ls x).Graphic := by
  intro u hu
  obtain ⟨l, hl, hflag⟩ := List.mem_flatMap.mp hu
  obtain ⟨hon, hoff⟩ := graphic l hl
  rw [flag] at hflag
  split at hflag
  · exact hon u hflag
  · exact hoff u hflag

/-! ### Rows -/

/-- What a row tells of an area: the digits of its access and, where they are listed, those of its
page protection. -/
structure Shown where
  pid : Number
  start : Number
  stop : Number
  pageOffset : Number
  access : List Bool
  protection? : Option (List Bool)
deriving DecidableEq

def shownOf (architecture : String) (pid : Number) (a : VirtualArea) : Shown where
  pid
  start := a.start
  stop := a.stop
  pageOffset := a.pageOffset
  access := accessSigns.map fun g => a.flags.digitAt g.place
  protection? :=
    if architecture = "ia32" ∨ architecture = "x64" then
      some (protectionSigns.map fun g => a.pageProtection.digitAt g.place)
    else none

/-- What the rows tell of a device: the entries that have an area, in order. -/
def shown (s : Settings) (d : Device) : List Shown :=
  d.areas.filterMap fun e => e.area.map (shownOf s.architecture e.pid)

def dash : UInt16 := 45

/-- The two figures of a range. -/
def readRange (t : Text) : Option (Number × Number) :=
  match t.splitOnP (· == dash) with
  | [start, stop] => some (figure start, figure stop)
  | _ => none

/-- A page offset is followed by the zeros of its page. -/
def readOffset (t : Text) : Option Number :=
  if t.drop (t.length - 3) = label "000" then some (figure (t.take (t.length - 3))) else none

/-- The words behind the page offset. -/
def readProtection : List Text → Option (Option (List Bool))
  | [] => some none
  | [t] => (readSigns protectionSigns t).map some
  | _ => none

def readRow (line : Text) : Option Shown :=
  match line.words with
  | pid :: range :: access :: offset :: rest => do
    let (start, stop) ← readRange range
    let access ← readSigns accessSigns access
    let pageOffset ← readOffset offset
    let protection? ← readProtection rest
    pure { pid := figure pid, start, stop, pageOffset, access, protection? }
  | _ => none

/-- The word of a range. -/
def rangeWord (a : VirtualArea) : Text := literal a.start 8 ++ dash :: literal a.stop 8

def offsetWord (a : VirtualArea) : Text := literal a.pageOffset 8 ++ label "000"

/-- What stands behind the page offset. -/
def behind (s : Settings) (a : VirtualArea) : Text :=
  if listsProtection s.architecture then space :: protection a.pageProtection else []

/-- A row without the end of its line. -/
def line (s : Settings) (pid : Number) (a : VirtualArea) : Text :=
  decimal pid 5 ++ space :: (rangeWord a ++ space :: (access a.flags ++ space ::
    (offsetWord a ++ behind s a)))

theorem dash_notMem_literal {x : Number} (count : x.IsCount) (digits : Number) :
    dash ∉ literal x digits := by
  obtain ⟨n, hn⟩ := Option.isSome_iff_exists.mp count
  obtain ⟨width, hhex⟩ := hex_of_count? hn digits
  have hdigit : ∀ c ∈ Decimal.zeros width ++ Nat.toDigits 16 n, ∃ d < 16, c = d.digitChar := by
    intro c hc
    rcases List.mem_append.mp hc with hzero | hdigit
    · exact ⟨0, by decide, (List.mem_replicate.mp hzero).2⟩
    · exact Decimal.exists_digitChar (by decide) hdigit
  have hgraphic : GraphicChars (Decimal.zeros width ++ Nat.toDigits 16 n) :=
    (GraphicChars.zeros width).append (.toDigits (by decide) (by decide) n)
  have hmark : dash ∉ label "0x" := by decide
  have hother : ∀ d < 16, UInt16.ofNat d.digitChar.toNat ≠ dash := by decide
  rw [literal, hexText, hhex]
  intro h
  rcases List.mem_append.mp h with h | h
  · exact hmark h
  · change dash ∈ Text.ofChars (Decimal.zeros width ++ Nat.toDigits 16 n) at h
    rw [Text.ofChars_graphic hgraphic] at h
    obtain ⟨c, hc, hcode⟩ := List.mem_map.mp h
    obtain ⟨d, hd, rfl⟩ := hdigit c hc
    exact hother d hd hcode

theorem readRange_rangeWord {a : VirtualArea} (counted : a.Counted) :
    readRange (rangeWord a) = some (a.start, a.stop) := by
  have hwhole {x : Number} (count : x.IsCount) :
      (literal x 8).splitOnP (· == dash) = [literal x 8] := by
    refine List.splitOnP_eq_singleton fun u hu => beq_eq_false_iff_ne.mpr ?_
    rintro rfl
    exact dash_notMem_literal count 8 hu
  have hparts : (rangeWord a).splitOnP (· == dash) = [literal a.start 8, literal a.stop 8] := by
    rw [rangeWord, List.splitOnP_append_cons (p := (· == dash)) _ _ (beq_self_eq_true _),
      hwhole counted.start, hwhole counted.stop]
    rfl
  rw [readRange, hparts]
  dsimp only
  rw [figure_literal counted.start, figure_literal counted.stop]

theorem readOffset_offsetWord {a : VirtualArea} (counted : a.Counted) :
    readOffset (offsetWord a) = some a.pageOffset := by
  have hlength : (offsetWord a).length - 3 = (literal a.pageOffset 8).length := by
    rw [offsetWord, List.length_append]
    exact Nat.add_sub_cancel _ 3
  rw [readOffset, hlength, offsetWord, List.drop_left, List.take_left, if_pos rfl,
    figure_literal counted.pageOffset]

theorem listsProtection_iff (architecture : String) :
    listsProtection architecture = true ↔ architecture = "ia32" ∨ architecture = "x64" := by
  simp [listsProtection, listedArchitectures]

theorem graphic_access (x : Number) : (access x).Graphic :=
  graphic_letters (by decide) x

theorem graphic_protection (x : Number) : (protection x).Graphic :=
  graphic_letters (by decide) x

theorem graphic_rangeWord {a : VirtualArea} (counted : a.Counted) : (rangeWord a).Graphic := by
  have hdash : Text.Graphic [dash] := by decide
  exact (graphic_literal counted.start.ne_infinite 8).append
    (hdash.append (graphic_literal counted.stop.ne_infinite 8))

theorem graphic_offsetWord {a : VirtualArea} (counted : a.Counted) : (offsetWord a).Graphic :=
  (graphic_literal counted.pageOffset.ne_infinite 8).append (by decide)

/-- Letters without a space among them are one word. -/
theorem words_letters {g : Sign} (clear : g.Clear) {rest : List Letter} {x : Number}
    (graphic : (letters (g.letter :: rest) x).Graphic) :
    (letters (g.letter :: rest) x).words = [letters (g.letter :: rest) x] := by
  obtain ⟨u, hletters, -⟩ := letters_cons clear rest x
  refine Text.words_graphic graphic ?_
  rw [hletters]
  exact List.cons_ne_nil _ _

theorem words_access (x : Number) : (access x).words = [access x] :=
  words_letters (clear_signs _ List.mem_cons_self) (graphic_access x)

theorem words_protection (x : Number) : (protection x).words = [protection x] :=
  words_letters (clear_signs _ (List.mem_append_right _ List.mem_cons_self)) (graphic_protection x)

theorem words_line (s : Settings) (pid : Number) {a : VirtualArea} (counted : a.Counted) :
    (line s pid a).words = written pid :: rangeWord a :: access a.flags :: offsetWord a ::
      if listsProtection s.architecture then [protection a.pageProtection] else [] := by
  have hrange : (rangeWord a).words = [rangeWord a] :=
    Text.words_graphic (graphic_rangeWord counted) (List.append_ne_nil_of_right_ne_nil _ nofun)
  have hoffset : (offsetWord a).words = [offsetWord a] :=
    Text.words_graphic (graphic_offsetWord counted)
      (List.append_ne_nil_of_right_ne_nil _ (by decide))
  rw [line, behind, Text.words_append_space, words_decimal, Text.words_append_space, hrange,
    Text.words_append_space, words_access]
  split_ifs
  · rw [Text.words_append_space, hoffset, words_protection]
    rfl
  · rw [List.append_nil, hoffset]
    rfl

/-- A row tells its entry. -/
theorem readRow_line (s : Settings) {pid : Number} (count : pid.IsCount) {a : VirtualArea}
    (counted : a.Counted) : readRow (line s pid a) = some (shownOf s.architecture pid a) := by
  have hprotection : readProtection
      (if listsProtection s.architecture then [protection a.pageProtection] else []) =
        some (shownOf s.architecture pid a).protection? := by
    rw [shownOf]
    dsimp only
    by_cases hlists : listsProtection s.architecture = true
    · rw [if_pos hlists, if_pos ((listsProtection_iff _).mp hlists), readProtection,
        readSigns_protection counted.pageProtection]
      rfl
    · rw [if_neg hlists, if_neg (mt (listsProtection_iff _).mpr hlists), readProtection]
  rw [readRow, words_line s pid counted]
  dsimp only
  rw [readRange_rangeWord counted, readSigns_access counted.flags, readOffset_offsetWord counted,
    hprotection, figure_written count.exact]
  rfl

/-! ### Bodies -/

/-- The rows below the heading: each stands behind an empty line, and the last one is ended. -/
def readRows : List Text → Option (List Shown)
  | [[]] => some []
  | [] :: line :: rest => do
    let first ← readRow line
    let others ← readRows rest
    pure (first :: others)
  | _ => none

/-- A body is its heading and what its rows tell. -/
def read (body : Bytes) : Option (Text × List Shown) :=
  match (Text.ofAscii body).lines with
  | heading :: rest => (readRows rest).map (heading, ·)
  | [] => none

/-- The heading without the end of its line. -/
def heading (d : Device) : Text :=
  label "vma use count: " ++ (label d.areaCount.number.text ++ (label ", high_memory = " ++
    (literal d.highMemory.virtual 16 ++ (label ", " ++ literal d.highMemory.physical 8))))

/-- The lines of an entry. -/
def linesOf (s : Settings) (e : AreaEntry) : List Text :=
  match e.area with
  | none => []
  | some a => [[], line s e.pid a]

variable {s : Settings} {d : Device} {e : AreaEntry} {entries : List AreaEntry}

theorem readRows_linesOf (counted : ∀ e ∈ entries, e.Counted) :
    readRows (entries.flatMap (linesOf s) ++ [[]]) =
      some (entries.filterMap fun e => e.area.map (shownOf s.architecture e.pid)) := by
  induction entries with
  | nil => rfl
  | cons e rest ih =>
    obtain ⟨⟨hpid, harea⟩, hrest⟩ := List.forall_mem_cons.mp counted
    obtain ⟨pid, area⟩ := e
    cases area with
    | none => exact ih hrest
    | some a =>
      have hrow : readRow (line s pid a) = _ := readRow_line s hpid (harea a rfl)
      rw [List.flatMap_cons, linesOf]
      dsimp only [List.cons_append, List.nil_append]
      rw [readRows, hrow, ih hrest]
      rfl

theorem printable_heading
    (finite : d.highMemory.virtual ≠ .infinite true ∧ d.highMemory.physical ≠ .infinite true) :
    (heading d).Printable := by
  have hcount : (label d.areaCount.number.text).Printable :=
    (Text.graphic_ofChars (Number.graphic_text _)).printable
  have hvirtual := (graphic_literal finite.1 16).printable
  have hphysical := (graphic_literal finite.2 8).printable
  exact Text.Printable.append (by decide) (hcount.append (Text.Printable.append
    (by decide) (hvirtual.append (Text.Printable.append (by decide) hphysical))))

theorem printable_line (s : Settings) (pid : Number) {a : VirtualArea} (counted : a.Counted) :
    (line s pid a).Printable := by
  have hbehind : (behind s a).Printable := by
    rw [behind]
    split_ifs
    · exact Text.Printable.spaced (t := []) nofun (graphic_protection _).printable
    · exact nofun
  refine (printable_decimal pid 5).spaced ((graphic_rangeWord counted).printable.spaced ?_)
  exact (graphic_access _).printable.spaced ((graphic_offsetWord counted).printable.append hbehind)

theorem printable_linesOf (counted : e.Counted) :
    ∀ t ∈ linesOf s e, t.Printable := by
  obtain ⟨pid, area⟩ := e
  cases area with
  | none => exact nofun
  | some a =>
    have hline := printable_line s pid (counted.2 a rfl)
    exact List.forall_mem_cons.mpr ⟨nofun, List.forall_mem_singleton.mpr hline⟩

theorem header_eq
    (finite : d.highMemory.virtual ≠ .infinite true ∧ d.highMemory.physical ≠ .infinite true) :
    header d = .ok (heading d ++ [Text.newline]) := by
  have hfirst : label ", high_memory = 0x" = label ", high_memory = " ++ label "0x" := by
    decide
  have hsecond : label ", 0x" = label ", " ++ label "0x" := by decide
  rw [header, hex_eq_ok finite.1, hex_eq_ok finite.2, heading]
  change Piece.joined ([label "vma use count: ", label d.areaCount.number.text,
    label ", high_memory = 0x", hexText d.highMemory.virtual 16, label ", 0x",
    hexText d.highMemory.physical 8, [Text.newline]].map Except.ok) = _
  rw [Piece.joined_ok, hfirst, hsecond]
  simp only [literal, List.flatten_cons, List.flatten_nil, List.append_assoc, List.append_nil]

/-- The range of a row opens with the empty line before it. -/
theorem range_eq (pid : Number) {a : VirtualArea} (counted : a.Counted) :
    range pid a = .ok (Text.newline :: (decimal pid 5 ++ space :: (rangeWord a ++ space ::
      (access a.flags ++ space :: offsetWord a)))) := by
  have hbreak : label "\n" = [Text.newline] := rfl
  have hspace : label " " = [space] := rfl
  have hmark : label " 0x" = space :: label "0x" := rfl
  have hdash : label "-0x" = dash :: label "0x" := rfl
  rw [range, hex_eq_ok counted.start.ne_infinite, hex_eq_ok counted.stop.ne_infinite,
    hex_eq_ok counted.pageOffset.ne_infinite]
  change Piece.joined ([label "\n", decimal pid 5, label " 0x", hexText a.start 8, label "-0x",
    hexText a.stop 8, label " ", access a.flags, label " 0x", hexText a.pageOffset 8,
    label "000"].map Except.ok) = _
  rw [Piece.joined_ok, hbreak, hspace, hmark, hdash, rangeWord, offsetWord]
  simp only [literal, List.flatten_cons, List.flatten_nil, List.append_assoc, List.cons_append,
    List.nil_append, List.append_nil]

/-- An entry prints its lines. -/
theorem row_texts (s : Settings) (counted : e.Counted) :
    ∃ ts : List Text, row s e = ts.map Except.ok ∧ ts.flatten = Text.ended (linesOf s e) := by
  obtain ⟨pid, area⟩ := e
  cases area with
  | none => exact ⟨[], rfl, rfl⟩
  | some a =>
    have hprotection : Piece.joined [" ", protection a.pageProtection] =
        .ok (space :: protection a.pageProtection) := by
      have hjoined := Piece.joined_ok [label " ", protection a.pageProtection]
      rw [List.flatten_cons, List.flatten_singleton] at hjoined
      exact hjoined
    rw [row, linesOf]
    dsimp only
    rw [range_eq pid (counted.2 a rfl), hprotection, Text.ended_cons, Text.ended_cons, line, behind]
    split_ifs
    · refine ⟨[_, space :: protection a.pageProtection, [Text.newline]], rfl, ?_⟩
      simp [Text.ended]
    · refine ⟨[_, [Text.newline]], rfl, ?_⟩
      simp [Text.ended]

theorem rows_texts (s : Settings) (counted : ∀ e ∈ entries, e.Counted) :
    ∃ ts : List Text, entries.flatMap (row s) = ts.map Except.ok ∧
      ts.flatten = Text.ended (entries.flatMap (linesOf s)) := by
  induction entries with
  | nil => exact ⟨[], rfl, rfl⟩
  | cons e rest ih =>
    obtain ⟨hfirst, hrest⟩ := List.forall_mem_cons.mp counted
    obtain ⟨ts, hrow, hts⟩ := row_texts s hfirst
    obtain ⟨us, hrows, hus⟩ := ih hrest
    refine ⟨ts ++ us, ?_, ?_⟩
    · rw [List.flatMap_cons, hrow, hrows, List.map_append]
    · rw [List.flatMap_cons, List.flatten_append, hts, hus, Text.ended_append]

/-- The report on virtual areas is its heading and, behind an empty line each, a row for every
entry that has an area; each row tells its entry. -/
theorem areas_read_back (s : Settings) (d : Device)
    (counted : ∀ e ∈ d.areas, e.Counted)
    (finite : d.highMemory.virtual ≠ .infinite true ∧ d.highMemory.physical ≠ .infinite true) :
    ∃ body, report.Body s d body ∧ read body = some (heading d, shown s d) := by
  obtain ⟨ts, hrows, hflatten⟩ := rows_texts s counted
  have hpieces : header d :: d.areas.flatMap (row s) =
      ((heading d ++ [Text.newline]) :: ts).map Except.ok := by
    rw [header_eq finite, hrows]
    rfl
  have hplain : ∀ t ∈ (heading d ++ [Text.newline]) :: ts, t.Plain := by
    intro t ht
    have hpiece := plain_pieces s d (.ok t) (hpieces ▸ List.mem_map_of_mem ht)
    exact Piece.plain_ok.mp hpiece
  have hprintable : ∀ t ∈ heading d :: d.areas.flatMap (linesOf s), t.Printable := by
    refine List.forall_mem_cons.mpr ⟨printable_heading finite, fun t ht => ?_⟩
    obtain ⟨e, he, hline⟩ := List.mem_flatMap.mp ht
    exact printable_linesOf (counted e he) t hline
  have hall : ((heading d ++ [Text.newline]) :: ts).flatten =
      Text.ended (heading d :: d.areas.flatMap (linesOf s)) := by
    rw [List.flatten_cons, hflatten, Text.ended_cons, List.append_assoc]
    rfl
  have hlists : report.Lists fun s d => header d :: d.areas.flatMap (row s) :=
    lists_ofPieces _ _ _
  refine ⟨_, body_of_lists hlists rfl rfl hpieces hplain, ?_⟩
  rw [hall, read, Text.ofAscii_encode (Text.plain_ended hprintable), Text.lines_ended hprintable]
  dsimp only [List.cons_append]
  rw [readRows_linesOf counted]
  rfl

/-- An area with wide figures: its start is the greatest count, and its access bits reach beyond
a word whose top bit they set. -/
def wideArea : VirtualArea where
  start := .ofCount (2 ^ 53 - 1)
  stop := .ofCount 0x1000
  flags := .ofCount (2 ^ 40 + 2 ^ 31 + 0x85)
  pageOffset := .ofCount (2 ^ 45)
  pageProtection := .ofCount (2 ^ 32 + 0x107)

/-- A device whose first entry has lost its area. -/
def wideDevice : Device :=
  { Sample.bare with areas := [⟨.ofCount 7, none⟩, ⟨.ofCount 1234567, some wideArea⟩] }

theorem wideDevice_counted : ∀ e ∈ wideDevice.areas, e.Counted := by
  have harea : wideArea.Counted := by constructor <;> decide
  have hfirst : AreaEntry.Counted ⟨.ofCount 7, none⟩ :=
    ⟨by decide, fun a h => absurd h (by simp)⟩
  have hsecond : AreaEntry.Counted ⟨.ofCount 1234567, some wideArea⟩ := by
    refine ⟨by decide, ?_⟩
    rintro a ⟨⟩
    exact harea
  exact List.forall_mem_cons.mpr ⟨hfirst, List.forall_mem_singleton.mpr hsecond⟩

/-- What the row of the wide area tells. -/
def wideShown (protection? : Option (List Bool)) : Shown where
  pid := .ofCount 1234567
  start := .ofCount (2 ^ 53 - 1)
  stop := .ofCount 0x1000
  pageOffset := .ofCount (2 ^ 45)
  access := [true, false, true, true, false, false]
  protection?

theorem areas_read_back_wide :
    (∀ e ∈ wideDevice.areas, e.Counted) ∧
      (wideDevice.highMemory.virtual ≠ .infinite true ∧
        wideDevice.highMemory.physical ≠ .infinite true) ∧
      (∃ body, report.Body Settings.defaults wideDevice body ∧
        read body = some (heading wideDevice,
          [wideShown (some [true, true, true, false, false, false, false, false, true])])) ∧
      ∃ body, report.Body { Settings.defaults with architecture := "arm64" } wideDevice body ∧
        read body = some (heading wideDevice, [wideShown none]) := by
  have hfinite : wideDevice.highMemory.virtual ≠ .infinite true ∧
      wideDevice.highMemory.physical ≠ .infinite true := by decide
  obtain ⟨body, hbody, hread⟩ :=
    areas_read_back Settings.defaults wideDevice wideDevice_counted hfinite
  obtain ⟨body', hbody', hread'⟩ := areas_read_back
    { Settings.defaults with architecture := "arm64" } wideDevice wideDevice_counted hfinite
  have hlisted : shown Settings.defaults wideDevice =
      [wideShown (some [true, true, true, false, false, false, false, false, true])] := by
    decide
  have hplain : shown { Settings.defaults with architecture := "arm64" } wideDevice =
      [wideShown none] := by decide
  exact ⟨wideDevice_counted, hfinite, ⟨body, hbody, hlisted ▸ hread⟩, body', hbody',
    hplain ▸ hread'⟩

end Report.VirtualAreas

end DeviceReports
