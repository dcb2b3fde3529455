import DeviceReports.Device.Sample
import DeviceReports.Proofs.QueueRows
import DeviceReports.Proofs.ReadTables

/-!
# Rows read back

The reports on mappings, clients and job queues are tables of seven, six and eight columns, and each
line gives back the figures it stands for, whatever their size: a column is filled up to its width
and never cut, so what is next to it stays apart. The tag of a mapping tells its kind as far as the
kind is one of those that have a tag, and the use column of a queue, which is pinned while it is
shown, is left out.
-/

set_option autoImplicit false

namespace DeviceReports

/-! ### Counted devices -/

/-- A non-negative integer below 2^53. -/
def Number.IsCount (x : Number) : Prop := x.count?.isSome = true

instance (x : Number) : Decidable x.IsCount := inferInstanceAs (Decidable (_ = true))

structure Mapping.Counted (m : Mapping) : Prop where
  offset : m.offset.IsCount
  size : m.size.IsCount
  flags : m.flags.IsCount
  mtrr : m.mtrr.Exact

structure Client.Counted (c : Client) : Prop where
  minorIndex : c.minorIndex.IsCount
  pid : c.pid.IsCount
  uid : c.uid.IsCount
  magic : c.magic.IsCount
  ioctlCount : c.ioctlCount.IsCount

/-- A device whose tables hold counts. The kind of a mapping may be any figure, its register number
any exact integer, and a counter any word. Positions in the tables are figures of their own. -/
structure Device.Counted (d : Device) : Prop where
  maps : ∀ e ∈ d.maps, e.userToken.IsCount ∧ ∀ m, e.mapping = some m → m.Counted
  clients : ∀ c ∈ d.clients, c.Counted
  queues : ∀ q ∈ d.queues, q.flags.IsCount ∧ q.waitlistCount.IsCount
  maps_length : d.maps.length ≤ Number.exactBound
  queues_length : d.queues.length ≤ Number.exactBound

namespace Number.IsCount

open Column

variable {x : Number} (count : x.IsCount)
include count

theorem exact : x.Exact := by
  obtain ⟨n, hn⟩ := Option.isSome_iff_exists.mp count
  exact exact_of_count? hn

theorem ne_infinite : x ≠ .infinite true := by
  rintro rfl
  cases count

end Number.IsCount

namespace Report

open Column

/-! ### Mappings -/

namespace Mappings

/-- The entries that have a mapping, each with its user token. -/
def mapped (entries : List MapEntry) : List (Mapping × Number) :=
  entries.filterMap fun e => e.mapping.map fun m => (m, e.userToken)

/-- What a row tells of a mapping. -/
structure Shown where
  slot : Number
  offset : Number
  size : Number
  kind? : Option Nat
  flags : Number
  userToken : Number
  mtrr? : Option Number
deriving DecidableEq

/-- A kind that has a tag. -/
def kindOf? (kind : Number) : Option Nat :=
  (tags.find? fun t => decide ((t.1 : Number) = kind)).map (·.1)

def shownOf (slot : Nat) (m : Mapping) (userToken : Number) : Shown where
  slot := slot
  offset := m.offset
  size := m.size
  kind? := kindOf? m.kind
  flags := m.flags
  userToken
  mtrr? := if m.mtrr < 0 then none else some m.mtrr

/-- What the rows tell of a device: slots number the entries that have a mapping. -/
def shown (d : Device) : List Shown :=
  (mapped d.maps).zipIdx.map fun x => shownOf x.2 x.1.1 x.1.2

/-- The kind that a tag stands for. -/
def kindOfTag? (tag : Text) : Option Nat := (tags.find? fun t => decide (label t.2 = tag)).map (·.1)

/-- The number of a register, or none. -/
def register? (t : Text) : Option Number := if t = label "none" then none else some (figure t)

def table : Table Shown where
  header := label "slot     offset       size type flags    address mtrr"
  columns := 7
  row
    | [slot, offset, size, tag, flags, userToken, register] =>
      some
        { slot := figure slot
          offset := figure offset
          size := figure size
          kind? := kindOfTag? tag
          flags := figure flags
          userToken := figure userToken
          mtrr? := register? register }
    | _ => none

/-- A row up to its register. -/
def opening (slot : Nat) (m : Mapping) (userToken : Number) : Text :=
  decimal slot 4 ++ space :: (literal m.offset 8 ++ space :: (literal m.size 8 ++ space ::
    (right (label (tag m.kind)) 4 ++ space :: (space :: (literal m.flags 2 ++ space ::
      (literal userToken 8 ++ [space]))))))

def registerText (m : Mapping) : Text := if m.mtrr < 0 then label "none" else decimal m.mtrr 4

/-- The last word of a row. -/
def registerWord (m : Mapping) : Text := if m.mtrr < 0 then label "none" else written m.mtrr

/-- A row without the end of its line. -/
def line (slot : Nat) (m : Mapping) (userToken : Number) : Text :=
  opening slot m userToken ++ registerText m

variable {m : Mapping} {userToken : Number} {slot : Nat}

theorem row_eq (counted : m.Counted) (token : userToken.IsCount) (slot : Nat) :
    row slot m userToken = .ok (opening slot m userToken) := by
  have hspace : label " " = [space] := rfl
  have hmark : label " 0x" = space :: label "0x" := rfl
  have hmarked : label "  0x" = space :: space :: label "0x" := rfl
  rw [row, hex_eq_ok counted.offset.ne_infinite, hex_eq_ok counted.size.ne_infinite,
    hex_eq_ok counted.flags.ne_infinite, hex_eq_ok token.ne_infinite, opening]
  change Piece.joined ([decimal slot 4, label " 0x", hexText m.offset 8, label " 0x",
    hexText m.size 8, label " ", right (label (tag m.kind)) 4, label "  0x", hexText m.flags 2,
    label " 0x", hexText userToken 8, label " "].map Except.ok) = _
  rw [Piece.joined_ok, hspace, hmark, hmarked]
  simp only [literal, List.flatten_cons, List.flatten_nil, List.append_assoc, List.cons_append,
    List.nil_append, List.append_nil]

theorem register_eq (m : Mapping) : register m = .ok (registerText m ++ [Text.newline]) := by
  rw [register, registerText]
  split_ifs
  · rfl
  · change Piece.joined ([decimal m.mtrr 4, label "\n"].map Except.ok) = _
    rw [Piece.joined_ok, List.flatten_cons, List.flatten_cons, List.flatten_nil, List.append_nil]
    rfl

/-- The tags, the one of no kind among them. -/
theorem tag_mem (kind : Number) : tag kind ∈ unknownTag :: tags.map (·.2) := by
  rw [tag]
  split
  · next t ht => exact List.mem_cons_of_mem _ (List.mem_map_of_mem (List.mem_of_find?_eq_some ht))
  · exact List.mem_cons_self

theorem words_tag (kind : Number) :
    Text.words (right (label (tag kind)) 4) = [label (tag kind)] := by
  have hall : ∀ s ∈ unknownTag :: tags.map (·.2), Text.words (right (label s) 4) = [label s] := by
    decide +kernel
  exact hall _ (tag_mem kind)

theorem printable_tag (kind : Number) : (right (label (tag kind)) 4).Printable := by
  have hall : ∀ s ∈ unknownTag :: tags.map (·.2), (right (label s) 4).Printable := by
    decide +kernel
  exact hall _ (tag_mem kind)

/-- A tag tells the kind it is the tag of. -/
theorem kindOfTag?_tag (kind : Number) : kindOfTag? (label (tag kind)) = kindOf? kind := by
  rw [kindOf?, tag]
  split
  · next t ht =>
    have hall : ∀ t ∈ tags, kindOfTag? (label t.2) = some t.1 := by decide +kernel
    rw [ht, hall t (List.mem_of_find?_eq_some ht)]
    rfl
  · next hnone =>
    rw [hnone]
    decide +kernel

theorem words_registerText (m : Mapping) : Text.words (registerText m) = [registerWord m] := by
  rw [registerText, registerWord]
  split_ifs
  · exact Text.words_graphic (by decide) (by decide)
  · exact words_decimal _ _

/-- A figure that is not negative is told from the word for none. -/
theorem register?_registerWord (exact : m.mtrr.Exact) :
    register? (registerWord m) = if m.mtrr < 0 then none else some m.mtrr := by
  rw [registerWord]
  by_cases hnegative : m.mtrr < 0
  · rw [if_pos hnegative, if_pos hnegative, register?, if_pos rfl]
  · have hfigure := figure_written exact
    have hword : written m.mtrr ≠ label "none" := by
      intro h
      have hnan : figure (label "none") = .nan := by decide +kernel
      obtain ⟨z, -, hz⟩ := exact
      rw [h, hnan, hz] at hfigure
      cases hfigure
    rw [if_neg hnegative, if_neg hnegative, register?, if_neg hword, hfigure]

theorem words_line (counted : m.Counted) (token : userToken.IsCount) (slot : Nat) :
    Text.words (line slot m userToken) =
      [written slot, literal m.offset 8, literal m.size 8, label (tag m.kind), literal m.flags 2,
        literal userToken 8, registerWord m] := by
  rw [line, opening]
  simp only [List.append_assoc, List.cons_append, List.nil_append, Text.words_append_space,
    Text.words_space_cons, words_decimal, words_tag, words_literal counted.offset.ne_infinite,
    words_literal counted.size.ne_infinite, words_literal counted.flags.ne_infinite,
    words_literal token.ne_infinite, words_registerText]

/-- A row tells what it stands for. -/
theorem readLine_line (counted : m.Counted) (token : userToken.IsCount)
    (exact : slot ≤ Number.exactBound) :
    table.readLine (line slot m userToken) = some (shownOf slot m userToken) := by
  rw [Table.readLine, words_line counted token]
  simp only [table, List.length_cons, List.length_nil, if_true]
  rw [figure_written (Number.exact_ofNat exact), figure_literal counted.offset,
    figure_literal counted.size, figure_literal counted.flags, figure_literal token,
    kindOfTag?_tag, register?_registerWord counted.mtrr, shownOf]

theorem printable_opening (counted : m.Counted) (token : userToken.IsCount) (slot : Nat) :
    (opening slot m userToken).Printable := by
  have hliteral {x : Number} (count : x.IsCount) (digits : Number) :
      (literal x digits).Printable := (graphic_literal count.ne_infinite digits).printable
  have hlast : (literal userToken 8 ++ [space]).Printable := (hliteral token 8).append (by decide)
  refine (printable_decimal _ _).spaced ((hliteral counted.offset 8).spaced ?_)
  refine (hliteral counted.size 8).spaced ((printable_tag m.kind).spaced ?_)
  exact Text.Printable.spaced (t := []) nofun ((hliteral counted.flags 2).spaced hlast)

theorem printable_registerText (m : Mapping) : (registerText m).Printable := by
  rw [registerText]
  split_ifs
  · exact Text.Graphic.printable (by decide)
  · exact printable_decimal _ _

/-- What the entries print from a slot on: the lines of those that have a mapping. -/
theorem rowsFrom_texts {entries : List MapEntry}
    (counted : ∀ e ∈ entries, e.userToken.IsCount ∧ ∀ m, e.mapping = some m → m.Counted)
    (slot : Nat) : ∃ ts : List Text, rowsFrom slot entries = ts.map Except.ok ∧
      (∀ t ∈ ts, t.Plain) ∧
      ts.flatten =
        Text.ended (((mapped entries).zipIdx slot).map fun x => line x.2 x.1.1 x.1.2) := by
  induction entries generalizing slot with
  | nil => exact ⟨[], rfl, nofun, rfl⟩
  | cons e rest ih =>
    obtain ⟨⟨htoken, hmapping⟩, hrest⟩ := List.forall_mem_cons.mp counted
    obtain ⟨mapping, userToken⟩ := e
    cases mapping with
    | none => exact ih hrest slot
    | some m =>
      have hm := hmapping m rfl
      obtain ⟨ts, hpieces, hplain, hflatten⟩ := ih hrest (slot + 1)
      have hmapped : mapped (⟨some m, userToken⟩ :: rest) = (m, userToken) :: mapped rest := rfl
      have hfirst := (printable_opening hm htoken slot).plain
      have hsecond : Text.Plain (registerText m ++ [Text.newline]) :=
        (printable_registerText m).plain.append (by decide)
      refine ⟨opening slot m userToken :: (registerText m ++ [Text.newline]) :: ts, ?_, ?_, ?_⟩
      · rw [List.map_cons, List.map_cons, ← hpieces, ← register_eq, ← row_eq hm htoken]
        rfl
      · exact List.forall_mem_cons.mpr ⟨hfirst, List.forall_mem_cons.mpr ⟨hsecond, hplain⟩⟩
      · rw [hmapped, List.zipIdx_cons, List.map_cons, List.flatten_cons, List.flatten_cons,
          hflatten, Text.ended_cons, line]
        simp only [List.append_assoc, List.singleton_append]

theorem length_mapped_le (entries : List MapEntry) : (mapped entries).length ≤ entries.length :=
  List.length_filterMap_le _ _

theorem counted_of_mem_mapped {d : Device} (counted : d.Counted) {x : Mapping × Number}
    (h : x ∈ mapped d.maps) : x.1.Counted ∧ x.2.IsCount := by
  obtain ⟨e, he, hx⟩ := List.mem_filterMap.mp h
  obtain ⟨m, hm, rfl⟩ := Option.map_eq_some_iff.mp hx
  obtain ⟨htoken, hmapping⟩ := counted.maps e he
  exact ⟨hmapping m hm, htoken⟩

theorem readsBack {d : Device} (counted : d.Counted) : report.ReadsBack table d (shown d) := by
  obtain ⟨ts, hpieces, hplain, hflatten⟩ := rowsFrom_texts counted.maps 0
  have hrow : ∀ x ∈ (mapped d.maps).zipIdx,
      x.1.1.Counted ∧ x.1.2.IsCount ∧ x.2 ≤ Number.exactBound := by
    rintro ⟨x, slot⟩ hx
    obtain ⟨-, hslot, hx⟩ := List.mem_zipIdx hx
    obtain ⟨hm, htoken⟩ := counted_of_mem_mapped counted (hx ▸ List.getElem_mem _)
    have hlength := length_mapped_le d.maps
    have hbound := counted.maps_length
    exact ⟨hm, htoken, by omega⟩
  refine readsBack_of_lists (lists_ofPieces _ _ _) rfl (fun _ => rfl)
    (fun _ => congrArg (header :: ·) hpieces) (by decide +kernel) (by decide +kernel)
    hplain hflatten ?_ ?_
  · refine List.forall_mem_map.mpr fun x hx => ?_
    obtain ⟨hm, htoken, -⟩ := hrow x hx
    exact (printable_opening hm htoken x.2).append (printable_registerText x.1.1)
  · refine table.map_readLine fun x hx => ?_
    obtain ⟨hm, htoken, hslot⟩ := hrow x hx
    exact readLine_line hm htoken hslot

end Mappings

/-! ### Clients -/

namespace Clients

def table : Table Client where
  header := label "a dev   pid   uid      magic     ioctls"
  columns := 6
  row
    | [authenticated, minorIndex, pid, uid, magic, ioctlCount] =>
      some
        { authenticated := authenticated = label "y"
          minorIndex := figure minorIndex
          pid := figure pid
          uid := figure uid
          magic := figure magic
          ioctlCount := figure ioctlCount }
    | _ => none

/-- The columns of a row. -/
def columns (c : Client) : List Text :=
  [flag c.authenticated "y" "n", decimal c.minorIndex 3, decimal c.pid 5, decimal c.uid 5,
    decimal c.magic 10, decimal c.ioctlCount 10]

/-- A row without the end of its line. -/
def line (c : Client) : Text := spaced (columns c)

theorem row_eq (c : Client) : row c = .ok (line c ++ [Text.newline]) := joined_spaced (columns c)

theorem graphic_authenticated (c : Client) : (flag c.authenticated "y" "n").Graphic := by
  cases c.authenticated
  · exact show (label "n").Graphic by decide
  · exact show (label "y").Graphic by decide

theorem words_line (c : Client) : Text.words (line c) =
    [flag c.authenticated "y" "n", written c.minorIndex, written c.pid, written c.uid,
      written c.magic, written c.ioctlCount] := by
  have hflag : flag c.authenticated "y" "n" ≠ [] := by
    cases c.authenticated <;> decide
  simp only [line, words_spaced, columns, List.flatMap_cons, List.flatMap_nil, words_decimal,
    Text.words_graphic (graphic_authenticated c) hflag, List.cons_append, List.nil_append]

theorem printable_line (c : Client) : (line c).Printable := by
  refine printable_spaced (List.forall_mem_cons.mpr ⟨(graphic_authenticated c).printable, ?_⟩)
  intro t ht
  simp only [List.mem_cons, List.not_mem_nil, or_false] at ht
  rcases ht with rfl | rfl | rfl | rfl | rfl <;> exact printable_decimal _ _

/-- A row tells its client. -/
theorem readLine_line {c : Client} (counted : c.Counted) : table.readLine (line c) = some c := by
  have hflag : decide (flag c.authenticated "y" "n" = label "y") = c.authenticated := by
    cases c.authenticated <;> decide
  rw [Table.readLine, words_line]
  simp only [table, List.length_cons, List.length_nil, if_true]
  rw [hflag, figure_written counted.minorIndex.exact, figure_written counted.pid.exact,
    figure_written counted.uid.exact, figure_written counted.magic.exact,
    figure_written counted.ioctlCount.exact]

theorem readsBack {d : Device} (counted : d.Counted) : report.ReadsBack table d d.clients := by
  have hrows :
      d.clients.map row = (d.clients.map fun c => line c ++ [Text.newline]).map Except.ok := by
    rw [List.map_map]
    exact List.map_congr_left fun c _ => row_eq c
  have hplain : ∀ t ∈ d.clients.map fun c => line c ++ [Text.newline], Text.Plain t :=
    List.forall_mem_map.mpr fun c _ => (printable_line c).plain.append (by decide)
  exact readsBack_of_lists (lists_ofPieces _ _ _) rfl (fun _ => rfl)
    (fun _ => congrArg (header :: ·) hrows) (by decide +kernel) (by decide +kernel) hplain
    (Text.flatten_ended d.clients line) (List.forall_mem_map.mpr fun c _ => printable_line c)
    ((table.map_readLine fun c hc => readLine_line (counted.clients c hc)).trans
      (by rw [List.map_id']))

end Clients

/-! ### Job queues -/

namespace Queues

/-- What a row tells of a queue. -/
structure Shown where
  index : Number
  flags : Number
  finalization : Number
  blockCount : Number
  blockRead : Bool
  blockWrite : Bool
  readWaiters : Bool
  writeWaiters : Bool
  flushWaiters : Bool
  waitlistCount : Number
  totalFlushed : Number
  totalQueued : Number
  totalLocks : Number
deriving DecidableEq

def shownOf (index : Nat) (q : JobQueue) : Shown where
  index := index
  flags := q.flags
  finalization := q.finalization.number
  blockCount := q.blockCount.number
  blockRead := q.blockRead.word != 0
  blockWrite := q.blockWrite.word != 0
  readWaiters := decide (0 < q.readWaiters)
  writeWaiters := decide (0 < q.writeWaiters)
  flushWaiters := decide (0 < q.flushWaiters)
  waitlistCount := q.waitlistCount
  totalFlushed := q.totalFlushed.number
  totalQueued := q.totalQueued.number
  totalLocks := q.totalLocks.number

/-- What the rows tell of a device. -/
def shown (d : Device) : List Shown := d.queues.zipIdx.map fun x => shownOf x.2 x.1

/-- Whether a letter stands at a place of a text. -/
def letterAt (t : Text) (place : Nat) (letter : Char) : Bool :=
  t[place]? == some (UInt16.ofNat letter.toNat)

/-- What the words of a row tell. The second, the use count, tells nothing. -/
def readWords : List Text → Option Shown
  | [place, _, finalization, blocks, waitlistCount, totalFlushed, totalQueued, totalLocks] =>
    match place.slashed, blocks.slashed with
    | [index, flags], [blockCount, blocked, waiting] =>
      some
        { index := figure index
          flags := figure flags
          finalization := figure finalization
          blockCount := figure blockCount
          blockRead := letterAt blocked 0 'r'
          blockWrite := letterAt blocked 1 'w'
          readWaiters := letterAt waiting 0 'r'
          writeWaiters := letterAt waiting 1 'w'
          flushWaiters := letterAt waiting 2 'f'
          waitlistCount := figure waitlistCount
          totalFlushed := figure totalFlushed
          totalQueued := figure totalQueued
          totalLocks := figure totalLocks }
    | _, _ => none
  | _ => none

def table : Table Shown where
  header := label "  ctx/flags   use   fin   blk/rw/rwf  wait    flushed     queued      locks"
  columns := 8
  row := readWords

variable {q : JobQueue} {i : Nat}

theorem slashed_place (exact : i ≤ Number.exactBound) (flags : q.flags.IsCount) :
    Text.slashed (written i ++ (label "/0x" ++ hexText q.flags 3)) =
      [written i, literal q.flags 3] := by
  have hmark : label "/0x" ++ hexText q.flags 3 = Text.slash :: literal q.flags 3 := rfl
  rw [hmark, Text.slashed_append_slash (slash_notMem_written (Number.exact_ofNat exact)),
    Text.slashed_of_notMem (slash_notMem_literal flags 3)]

theorem slashed_blocks (q : JobQueue) :
    Text.slashed
        (written q.blockCount.number ++ (label "/" ++ blocked q ++ label "/" ++ waiting q)) =
      [written q.blockCount.number, blocked q, waiting q] := by
  have hslash : label "/" = [Text.slash] := rfl
  have hblocked : Text.slash ∉ blocked q := by
    rw [blocked]
    cases q.blockRead.word != 0 <;> cases q.blockWrite.word != 0 <;> decide
  have hwaiting : Text.slash ∉ waiting q := by
    rw [waiting]
    cases decide (0 < q.readWaiters) <;> cases decide (0 < q.writeWaiters) <;>
      cases decide (0 < q.flushWaiters) <;> decide
  simp only [hslash, List.append_assoc, List.cons_append, List.nil_append]
  rw [Text.slashed_append_slash (slash_notMem_written (Number.exact_counter _)),
    Text.slashed_append_slash hblocked, Text.slashed_of_notMem hwaiting]

theorem letters_blocked (q : JobQueue) : letterAt (blocked q) 0 'r' = (q.blockRead.word != 0) ∧
    letterAt (blocked q) 1 'w' = (q.blockWrite.word != 0) := by
  rw [blocked]
  cases q.blockRead.word != 0 <;> cases q.blockWrite.word != 0 <;> decide

theorem letters_waiting (q : JobQueue) :
    letterAt (waiting q) 0 'r' = decide (0 < q.readWaiters) ∧
      letterAt (waiting q) 1 'w' = decide (0 < q.writeWaiters) ∧
      letterAt (waiting q) 2 'f' = decide (0 < q.flushWaiters) := by
  rw [waiting]
  cases decide (0 < q.readWaiters) <;> cases decide (0 < q.writeWaiters) <;>
    cases decide (0 < q.flushWaiters) <;> decide

/-- A row tells what it stands for, the use count apart. -/
theorem readLine_line (flags : q.flags.IsCount) (waitlist : q.waitlistCount.IsCount)
    (exact : i ≤ Number.exactBound) :
    table.readLine (line i q (hexText q.flags 3)) = some (shownOf i q) := by
  have hgraphic : (hexText q.flags 3).Graphic := graphic_hex (hex_eq_ok flags.ne_infinite 3)
  have hcount (c : Counter) : figure (written c.number) = c.number :=
    figure_written (Number.exact_counter c)
  obtain ⟨hread, hwrite⟩ := letters_blocked q
  obtain ⟨hreaders, hwriters, hflushers⟩ := letters_waiting q
  rw [Table.readLine, words_line i q hgraphic]
  simp only [table, List.length_cons, List.length_nil, if_true, readWords]
  rw [slashed_place exact flags, slashed_blocks]
  dsimp only
  rw [figure_written (Number.exact_ofNat exact), figure_literal flags, hcount, hcount, hread,
    hwrite, hreaders, hwriters, hflushers, figure_written waitlist.exact, hcount, hcount, hcount,
    shownOf]

/-- The line of a queue, which is pinned while it is shown. -/
def pinnedLine (i : Nat) (q : JobQueue) : Text := line i (pin q) (hexText q.flags 3)

theorem readsBack {d : Device} (counted : d.Counted) : report.ReadsBack table d (shown d) := by
  let printed (x : JobQueue × Nat) : Text := pinnedLine x.2 x.1 ++ [Text.newline]
  have hrow : ∀ x ∈ d.queues.zipIdx, row x.2 (pin x.1) = .ok (printed x) ∧
      (pinnedLine x.2 x.1).Printable ∧
        table.readLine (pinnedLine x.2 x.1) = some (shownOf x.2 x.1) := by
    rintro ⟨q, i⟩ hx
    have hq := List.mk_mem_zipIdx_iff_getElem?.mp hx
    obtain ⟨hflags, hwaitlist⟩ := counted.queues q (List.mem_of_getElem? hq)
    obtain ⟨hi, -⟩ := List.getElem?_eq_some_iff.mp hq
    have hhex := hex_eq_ok hflags.ne_infinite 3
    have hbound := counted.queues_length
    exact ⟨row_eq i hhex, printable_line i (pin q) (graphic_hex hhex),
      readLine_line (q := pin q) hflags hwaitlist (by omega)⟩
  have hpieces : pieces d = (headerText :: d.queues.zipIdx.map printed).map Except.ok := by
    rw [pieces, flatMap_rowAt, List.mapIdx_eq_zipIdx_map, List.map_cons, List.map_map]
    exact congrArg (header :: ·) (List.map_congr_left fun x hx => (hrow x hx).1)
  refine readsBack_of_lists lists rfl (fun _ => rfl) (fun _ => hpieces) (by decide +kernel)
    (by decide +kernel) (List.forall_mem_map.mpr fun x hx => ?_)
    (Text.flatten_ended d.queues.zipIdx fun x => pinnedLine x.2 x.1)
    (List.forall_mem_map.mpr fun x hx => (hrow x hx).2.1)
    (table.map_readLine fun x hx => (hrow x hx).2.2)
  exact (hrow x hx).2.1.plain.append (by decide)

end Queues

/-! ### The three tables -/

/-- The reports on mappings, clients and job queues are read back, so devices for which one of them
coincides agree on all that it shows in full. -/
theorem tables_read_back (d : Device) (counted : d.Counted) :
    Mappings.report.ReadsBack Mappings.table d (Mappings.shown d) ∧
    Clients.report.ReadsBack Clients.table d d.clients ∧
    Queues.report.ReadsBack Queues.table d (Queues.shown d) ∧
    ∀ e : Device, e.Counted →
      (Mappings.report.Coincides d e → Mappings.shown d = Mappings.shown e) ∧
      (Clients.report.Coincides d e → d.clients = e.clients) ∧
      (Queues.report.Coincides d e → Queues.shown d = Queues.shown e) := by
  refine ⟨Mappings.readsBack counted, Clients.readsBack counted, Queues.readsBack counted, ?_⟩
  intro e other
  exact ⟨(Mappings.readsBack counted).shown_eq (Mappings.readsBack other),
    (Clients.readsBack counted).shown_eq (Clients.readsBack other),
    (Queues.readsBack counted).shown_eq (Queues.readsBack other)⟩

/-- A device with an entry without a mapping between two others, and with figures that are wider
than their columns. -/
def crowded : Device :=
  { Sample.bare with
    maps := [⟨some ⟨.ofCount 9007199254740991, .ofCount 4096, .ofCount 1, .ofCount 34, .ofInt (-1)⟩,
        .ofCount 268435456⟩, ⟨none, .ofCount 0⟩,
      ⟨some ⟨.ofCount 0, .ofCount 65536, .ofCount 9, .ofCount 4095, .ofInt 123456⟩, .ofCount 1⟩]
    clients := [⟨true, .ofCount 0, .ofCount 1200, .ofCount 123456789, .ofCount 7, .ofCount 42⟩]
    queues := [{ JobQueue.ofValue .missing with
      blockRead := ⟨1⟩, readWaiters := .ofCount 2, totalLocks := ⟨-5⟩ }] }

theorem counted_crowded : crowded.Counted where
  maps := by
    have hfirst : Mapping.Counted
        ⟨.ofCount 9007199254740991, .ofCount 4096, .ofCount 1, .ofCount 34, .ofInt (-1)⟩ :=
      ⟨by decide +kernel, by decide +kernel, by decide +kernel,
        Number.exact_ofInt (z := -1) (by decide)⟩
    have hlast : Mapping.Counted
        ⟨.ofCount 0, .ofCount 65536, .ofCount 9, .ofCount 4095, .ofInt 123456⟩ :=
      ⟨by decide +kernel, by decide +kernel, by decide +kernel,
        Number.exact_ofInt (z := 123456) (by decide)⟩
    intro e he
    simp only [crowded, List.mem_cons, List.not_mem_nil, or_false] at he
    rcases he with rfl | rfl | rfl
    · exact ⟨by decide +kernel, fun m h => Option.some.inj h ▸ hfirst⟩
    · exact ⟨by decide +kernel, fun m h => absurd h (by simp)⟩
    · exact ⟨by decide +kernel, fun m h => Option.some.inj h ▸ hlast⟩
  clients := List.forall_mem_singleton.mpr
    ⟨by decide +kernel, by decide +kernel, by decide +kernel, by decide +kernel, by decide +kernel⟩
  queues := List.forall_mem_singleton.mpr ⟨by decide +kernel, by decide +kernel⟩
  maps_length := by decide
  queues_length := by decide

/-- What the rows tell of its two mappings. -/
def crowdedMappings : List Mappings.Shown :=
  [⟨.ofCount 0, .ofCount 9007199254740991, .ofCount 4096, some 1, .ofCount 34,
      .ofCount 268435456, none⟩,
    ⟨.ofCount 1, .ofCount 0, .ofCount 65536, none, .ofCount 4095, .ofCount 1,
      some (.ofCount 123456)⟩]

/-- What the row tells of its queue. -/
def crowdedQueues : List Queues.Shown :=
  [{ index := .ofCount 0, flags := .ofCount 0, finalization := .ofCount 0, blockCount := .ofCount 0
     blockRead := true, blockWrite := false
     readWaiters := true, writeWaiters := false, flushWaiters := false
     waitlistCount := .ofCount 0, totalFlushed := .ofCount 0, totalQueued := .ofCount 0
     totalLocks := .ofInt (-5) }]

/-- The tables of that device tell its two mappings, its client and its queue. -/
theorem tables_crowded : crowded.Counted ∧
    Mappings.report.ReadsBack Mappings.table crowded crowdedMappings ∧
    Clients.report.ReadsBack Clients.table crowded crowded.clients ∧
    Queues.report.ReadsBack Queues.table crowded crowdedQueues := by
  obtain ⟨hmappings, hclients, hqueues, -⟩ := tables_read_back crowded counted_crowded
  have hshown : Mappings.shown crowded = crowdedMappings := by decide +kernel
  have hqueue : Queues.shown crowded = crowdedQueues := by decide +kernel
  rw [hshown] at hmappings
  rw [hqueue] at hqueues
  exact ⟨counted_crowded, hmappings, hclients, hqueues⟩

end Report

end DeviceReports
