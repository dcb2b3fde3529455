import DeviceReports.Proofs.DecodedText
import DeviceReports.Proofs.PlainReports
import DeviceReports.Proofs.ReportLines

/-!
# Characters that reports damage

What a report shows is read back as text. Where the texts of a snapshot have no replacement
character and nothing is dropped, none is shown either, with one exception: the column of a memory
area's name is cut at nine units, and where the ninth is the high half of a pair, its character is
lost and a replacement character stands for the half that is left. Figures, marks and the texts
that identify a device come through whole.
-/

set_option autoImplicit false

namespace DeviceReports

open Text (Bytes replacement)

namespace Text

/-! ### Replacement characters -/

/-- How many replacement characters a text reads as. -/
def replaced (t : Text) : Nat := (chars t).count replacement

/-- What is read of a text stays where units are put behind it that complete no pair. -/
theorem foldr_prependUnit (t : Text) {codes : List Nat}
    (whole : ∀ code ∈ codes.head?, isLowHalf code = false) :
    t.foldr prependUnit codes = codePoints t ++ codes := by
  induction t with
  | nil => rfl
  | cons u rest ih =>
    have hstep : codePoints (u :: rest) = prependUnit u (codePoints rest) := rfl
    rw [List.foldr_cons, ih, hstep]
    cases codePoints rest with
    | nil =>
      cases codes with
      | nil => rfl
      | cons next others =>
        have hnext := whole next rfl
        change prependUnit u (next :: others) = u.toNat :: next :: others
        rw [prependUnit, hnext, Bool.and_false, if_neg Bool.false_ne_true]
    | cons next others =>
      rw [List.cons_append, prependUnit, prependUnit]
      split_ifs <;> rfl

theorem chars_append_plain (t : Text) {u : Text} (plain : u.Plain) :
    chars (t ++ u) = chars t ++ chars u := by
  have hwhole : ∀ code ∈ (codePoints u).head?, isLowHalf code = false := by
    intro code hcode
    rw [codePoints_plain plain] at hcode
    obtain ⟨x, hx, rfl⟩ := List.mem_map.mp (List.mem_of_mem_head? hcode)
    have hsmall := plain x hx
    rw [Bool.eq_false_iff]
    intro hlow
    have hbound := isLowHalf_iff.mp hlow
    omega
  rw [chars, codePoints, List.foldr_append, ← codePoints, foldr_prependUnit t hwhole,
    List.map_append]
  rfl

theorem replaced_plain {t : Text} (plain : t.Plain) : t.replaced = 0 := by
  have hcode : ∀ n < 128, charOf n ≠ replacement := by decide
  rw [replaced, List.count_eq_zero, chars, codePoints_plain plain, List.map_map]
  intro hmem
  obtain ⟨u, hu, hchar⟩ := List.mem_map.mp hmem
  exact hcode _ (plain u hu) hchar

theorem sum_replaced_plain {ts : List Text} (plain : ∀ t ∈ ts, t.Plain) :
    (ts.map replaced).sum = 0 := by
  rw [List.sum_eq_zero_iff]
  intro n hn
  obtain ⟨t, ht, rfl⟩ := List.mem_map.mp hn
  exact replaced_plain (plain t ht)

theorem replaced_append_plain (t : Text) {u : Text} (plain : u.Plain) :
    (t ++ u).replaced = t.replaced := by
  have hzero := replaced_plain plain
  rw [replaced] at hzero ⊢
  rw [chars_append_plain t plain, List.count_append, hzero]
  rfl

theorem replaced_ofString (s : String) : (ofString s).replaced = s.toList.count replacement := by
  rw [replaced, ofString, chars_ofChars]

/-- A character is written with a unit that is no low half, or with a high half and a low one. -/
theorem ofChar_cases (c : Char) :
    (∃ u, ofChar c = [u] ∧ isLowHalf u.toNat = false) ∨
      ∃ high low, ofChar c = [high, low] ∧ isHighHalf high = true ∧ isLowHalf low.toNat = true := by
  have hcode := toNat_lt_or_gt c
  rw [ofChar]
  generalize c.toNat = code at hcode
  by_cases hone : code < 0x10000
  · have hunit : (UInt16.ofNat code).toNat = code := UInt16.toNat_ofNat_of_lt hone
    rw [if_pos hone]
    refine Or.inl ⟨_, rfl, ?_⟩
    rw [Bool.eq_false_iff]
    intro hlow
    have hbound := isLowHalf_iff.mp hlow
    omega
  · have hhalf : ∀ half : Nat, half < 0xE000 → (UInt16.ofNat half).toNat = half := fun half h =>
      UInt16.toNat_ofNat_of_lt (Nat.lt_trans h (by decide))
    rw [if_neg hone]
    refine Or.inr ⟨_, _, rfl, ?_, ?_⟩
    · rw [isHighHalf_iff, hhalf _ (by omega)]
      omega
    · rw [isLowHalf_iff, hhalf _ (by omega)]
      omega

/-- Whether a text that is cut after `n` units is cut within a character. -/
def splitAfter (t : Text) (n : Nat) : Bool := t[n]?.any fun u => isLowHalf u.toNat

theorem replaced_ofChar_append {c : Char} (whole : c ≠ replacement) (t : Text) :
    (ofChar c ++ t).replaced = t.replaced := by
  rw [replaced, chars_ofChar_append, List.count_cons_of_ne whole]
  rfl

theorem replaced_half {u : UInt16} (high : isHighHalf u = true) : Text.replaced [u] = 1 := by
  have hbound := isHighHalf_iff.mp high
  have hhalf : IsHalf u := ⟨hbound.1, by omega⟩
  have halone : ¬ Paired u [] := by
    rintro ⟨-, low, others, h, -⟩
    cases h
  rw [replaced, chars_of_not_paired halone, charOf_half hhalf]
  rfl

/-- A cut within a character leaves a half of it, and a cut between characters leaves them whole. -/
theorem replaced_take_ofChars {cs : List Char} (whole : replacement ∉ cs) (n : Nat) :
    Text.replaced ((ofChars cs).take n) = if (ofChars cs).splitAfter n = true then 1 else 0 := by
  induction cs generalizing n with
  | nil => simp [ofChars, splitAfter, replaced, chars, codePoints]
  | cons c cs ih =>
    have hc : c ≠ replacement := fun h => whole (h ▸ List.mem_cons_self)
    have hrest := ih fun h => whole (List.mem_cons_of_mem c h)
    have hstep : ofChars (c :: cs) = ofChar c ++ ofChars cs := rfl
    have hchar := replaced_ofChar_append hc
    rw [hstep]
    obtain ⟨u, hunit, hlow⟩ | ⟨high, low, hpair, hhigh, hlow⟩ := ofChar_cases c
    · rw [hunit] at hchar ⊢
      cases n with
      | zero =>
        have hnot : splitAfter ([u] ++ ofChars cs) 0 = false := hlow
        rw [hnot]
        rfl
      | succ n =>
        have hsame : splitAfter ([u] ++ ofChars cs) (n + 1) = splitAfter (ofChars cs) n := rfl
        have htake : ([u] ++ ofChars cs).take (n + 1) = [u] ++ (ofChars cs).take n := rfl
        rw [hsame, htake, hchar, hrest]
    · rw [hpair] at hchar ⊢
      rcases n with _ | _ | n
      · have hnot : splitAfter ([high, low] ++ ofChars cs) 0 = false := by
          change isLowHalf high.toNat = false
          rw [Bool.eq_false_iff]
          intro h
          have hbelow := isHighHalf_iff.mp hhigh
          have habove := isLowHalf_iff.mp h
          omega
        rw [hnot]
        rfl
      · have hsplit : splitAfter ([high, low] ++ ofChars cs) 1 = true := hlow
        have hhalf : ([high, low] ++ ofChars cs).take 1 = [high] := rfl
        rw [hsplit, hhalf, if_pos rfl, replaced_half hhigh]
      · have hsame : splitAfter ([high, low] ++ ofChars cs) (n + 2) =
            splitAfter (ofChars cs) n := rfl
        have htake : ([high, low] ++ ofChars cs).take (n + 2) =
            [high, low] ++ (ofChars cs).take n := rfl
        rw [hsame, htake, hchar, hrest]

end Text

/-- A buffer that dropped nothing shows the replacement characters of what was printed into it. -/
theorem Bounds.replaced_printAll {sizeLimit capacity : Nat} {ts : List Text}
    (whole : ((Bounds.buffer sizeLimit capacity).printAll ts).truncated = false) :
    ((Bounds.buffer sizeLimit capacity).printAll ts).text.toList.count replacement =
      (ts.map Text.replaced).sum := by
  have hfits : (Text.utf8 (ts.flatMap Text.chars)).length ≤
      min capacity ReportBuffer.mostBytes := by
    rw [Bounds.buffer, ReportBuffer.printAll_new, Text.flatMap_encode] at whole
    exact Nat.le_of_not_lt (of_decide_eq_false whole)
  have hmark (cs : List Char) : (Text.dropMark cs).count replacement = cs.count replacement := by
    cases cs with
    | nil => rfl
    | cons c cs =>
      rw [Text.dropMark]
      split_ifs with hc
      · subst hc
        exact (List.count_cons_of_ne (by decide)).symm
      · rfl
  rw [Bounds.buffer, ReportBuffer.text_of_fits _ hfits, String.toList_ofList, hmark,
    List.count_flatMap]
  rfl

namespace Report

/-! ### The two reports that show texts -/

namespace Identity

/-- The texts that identify a device are shown whole. -/
theorem replaced_line {d : Device} (driver : replacement ∉ d.driverName.display.toList)
    (bus : replacement ∉ d.busId.display.toList)
    (unique : replacement ∉ (d.unique.getD "").toList) :
    (Text.ofString (line d)).replaced = 0 := by
  have hmarks : replacement ∉ " ".toList ∧ replacement ∉ "\n".toList := by decide
  have hplace : replacement ∉ (place d).toList := by
    simp only [place, String.toList_append, List.mem_append, not_or]
    exact ⟨⟨driver, hmarks.1⟩, bus⟩
  rw [Text.replaced_ofString, List.count_eq_zero, line]
  cases hd : d.unique with
  | none =>
    simp only [String.toList_append, List.mem_append, not_or]
    exact ⟨hplace, hmarks.2⟩
  | some u =>
    rw [hd] at unique
    dsimp only
    split
    · simp only [String.toList_append, List.mem_append, not_or]
      exact ⟨hplace, hmarks.2⟩
    · simp only [String.toList_append, List.mem_append, not_or]
      exact ⟨⟨⟨hplace, hmarks.1⟩, unique⟩, hmarks.2⟩

end Identity

namespace MemoryAreas

open Column

/-- Whether the column of an area's name is cut within a character. -/
def cutsName (a : MemoryArea) : Bool := (label a.name).splitAfter 9

theorem replaced_left (t : Text) : (left t 9).replaced = Text.replaced (t.take 9) := by
  have hcut : cut t 9 = t.take 9 := by
    change cut t (Number.ofNat 9) = _
    rw [cut, Number.ofNat_eq_ofCount (by decide), Number.position_ofCount, ← List.take_eq_take_min]
  have hspaces (n : Nat) : Text.Plain (List.replicate n space) := by
    intro u hu
    obtain ⟨-, rfl⟩ := List.mem_replicate.mp hu
    decide
  rw [left, Text.padEnd, Text.replaced_append_plain _ (hspaces _), hcut]

/-- The columns behind the name. -/
def figureColumns (a : MemoryArea) : List Text :=
  [label " ", decimal a.succeedCount 5, label " ", decimal a.freeCount 5, label " ",
    decimal a.failCount 4, label " ", decimal a.bytesAllocated 10, label " ",
    decimal a.bytesFreed 10, label " | ", decimal (a.succeedCount - a.freeCount) 6, label " ",
    decimal (a.bytesAllocated - a.bytesFreed) 10, label "\n"]

theorem row_eq (a : MemoryArea) :
    row a = .ok (left (label a.name) 9 ++ (figureColumns a).flatten) :=
  Piece.joined_ok (left (label a.name) 9 :: figureColumns a)

/-- A row shows a replacement character where it cuts the name within a character. -/
theorem replaced_row {a : MemoryArea} (whole : replacement ∉ a.name.toList) :
    ∃ t, row a = .ok t ∧ t.replaced = if cutsName a = true then 1 else 0 := by
  have hfigures : Text.Plain (figureColumns a).flatten :=
    Text.plain_flatten (by simp [figureColumns]; decide)
  refine ⟨_, row_eq a, ?_⟩
  rw [Text.replaced_append_plain _ hfigures, replaced_left]
  exact Text.replaced_take_ofChars whole 9

theorem replaced_rows {areas : List MemoryArea} (whole : ∀ a ∈ areas, replacement ∉ a.name.toList) :
    ∃ ts : List Text, areas.map row = ts.map Except.ok ∧
      (ts.map Text.replaced).sum = areas.countP cutsName := by
  induction areas with
  | nil => exact ⟨[], rfl, rfl⟩
  | cons a rest ih =>
    obtain ⟨hfirst, hrest⟩ := List.forall_mem_cons.mp whole
    obtain ⟨t, hrow, hreplaced⟩ := replaced_row hfirst
    obtain ⟨ts, hrows, hsum⟩ := ih hrest
    refine ⟨t :: ts, ?_, ?_⟩
    · rw [List.map_cons, List.map_cons, hrow, hrows]
    · rw [List.map_cons, List.sum_cons, hreplaced, hsum, List.countP_cons, Nat.add_comm]

/-- The lines above the rows are the report's own. -/
theorem plain_opening (s : Settings) (t : MemoryTracker) :
    ∀ p ∈ [title, header, summary "system" (systemKilobytes s t),
      summary "locked" (lockedKilobytes t), Piece.newLine], p.Plain := by
  have hsummary (name : String) (plain : (left (label name) 9).Plain) (kilobytes : Number) :
      (summary name kilobytes).Plain := Piece.plain_joined (by simp [plain]; decide)
  have hsystem := hsummary "system" (by decide)
  have hlocked := hsummary "locked" (by decide)
  have htitle : title.Plain := Piece.plain_joined (by simp; decide)
  have hheader : header.Plain := Piece.plain_joined (by simp; decide)
  simp [htitle, hheader, hsystem, hlocked]

/-- A whole report shows as many replacement characters as it cuts names within a character. -/
theorem replaced_pieces (s : Settings) {t : MemoryTracker}
    (whole : ∀ a ∈ t.areas, replacement ∉ a.name.toList) :
    ∃ ts : List Text, [title, header, summary "system" (systemKilobytes s t),
        summary "locked" (lockedKilobytes t), Piece.newLine] ++ t.areas.map row =
          ts.map Except.ok ∧
      (ts.map Text.replaced).sum = t.areas.countP cutsName := by
  have hready := ready_pieces s t
  obtain ⟨ts, hrows, hsum⟩ := replaced_rows whole
  refine ⟨Piece.texts [title, header, summary "system" (systemKilobytes s t),
    summary "locked" (lockedKilobytes t), Piece.newLine] ++ ts, ?_, ?_⟩
  · rw [List.map_append, ← hrows, ← Piece.eq_texts fun p hp => hready p (List.mem_append_left _ hp)]
  · have hopening := Text.sum_replaced_plain (Piece.plain_texts (plain_opening s t))
    rw [List.map_append, List.sum_append, hsum, hopening, Nat.zero_add]

end MemoryAreas

end Report

/-! ### The texts of a snapshot -/

namespace Value

mutual

/-- The texts in a value. Keys are no texts. -/
def texts : Value → List String
  | .string t => [t]
  | .list items => itemTexts items
  | .record fields => fieldTexts fields
  | _ => []

def itemTexts : List Value → List String
  | [] => []
  | v :: rest => texts v ++ itemTexts rest

def fieldTexts : List (String × Value) → List String
  | [] => []
  | (_, v) :: rest => texts v ++ fieldTexts rest

end

theorem itemTexts_eq (items : List Value) : itemTexts items = items.flatMap texts := by
  induction items with
  | nil => rfl
  | cons v rest ih => rw [itemTexts, ih, List.flatMap_cons]

theorem fieldTexts_eq (fields : List (String × Value)) :
    fieldTexts fields = fields.flatMap fun f => f.2.texts := by
  induction fields with
  | nil => rfl
  | cons f rest ih => rw [fieldTexts, ih, List.flatMap_cons]

/-- A value whose texts have no replacement character. -/
def Undamaged (v : Value) : Prop := ∀ t ∈ v.texts, replacement ∉ t.toList

instance (v : Value) : Decidable v.Undamaged :=
  List.decidableBAll (fun t : String => replacement ∉ t.toList) v.texts

namespace Undamaged

variable {v w : Value}

theorem of_item (undamaged : v.Undamaged) (item : w ∈ v.items) : w.Undamaged := by
  cases v with
  | list items =>
    intro t ht
    refine undamaged t ?_
    rw [texts, itemTexts_eq]
    exact List.mem_flatMap.mpr ⟨w, item, ht⟩
  | _ => cases item

theorem field (undamaged : v.Undamaged) (key : String) : (v.field key).Undamaged := by
  cases v with
  | record fields =>
    intro t ht
    refine undamaged t ?_
    rw [texts, fieldTexts_eq]
    rw [Value.field, lookup] at ht
    cases hfound : fields.find? (·.1 == key) with
    | none =>
      rw [hfound] at ht
      cases ht
    | some f =>
      rw [hfound] at ht
      exact List.mem_flatMap.mpr ⟨f, List.mem_of_find?_eq_some hfound, ht⟩
  | _ =>
    intro t ht
    cases ht

theorem of_string {s : String} (undamaged : (Value.string s).Undamaged) :
    replacement ∉ s.toList := undamaged s List.mem_cons_self

end Undamaged

end Value

theorem Value.eq_of_given? {v w : Value} (h : v.given? = some w) : v = w := by
  cases v with
  | missing => cases h
  | _ => exact Option.some.inj h

theorem MemoryArea.undamaged_of_carries {item : Value} {a : MemoryArea}
    (carries : Carries MemoryArea.rows item a) (undamaged : item.Undamaged) :
    replacement ∉ a.name.toList := by
  have hname : item.fieldOr "name" .required = .string a.name :=
    carries (.text "name" (·.name)) List.mem_cons_self
  have hfield := undamaged.field "name"
  rw [Value.fieldOr] at hname
  split at hname
  · cases hname
  · rw [hname] at hfield
    exact hfield.of_string

/-- A device whose texts have no replacement character. -/
structure Device.Undamaged (d : Device) : Prop where
  driver : replacement ∉ d.driverName.display.toList
  bus : replacement ∉ d.busId.display.toList
  unique : replacement ∉ (d.unique.getD "").toList
  areas : ∀ a ∈ d.memoryTracker.areas, replacement ∉ a.name.toList

/-- The texts of a device are those of its snapshot. -/
theorem Snapshot.undamaged_of_load {document : Value} {source : String} {d : Device}
    (loaded : load document source = .ok d) (undamaged : document.Undamaged) : d.Undamaged := by
  obtain ⟨hconforms, rfl⟩ := load_eq_ok.mp loaded
  have hcarried := device_carried hconforms
  have hshown (key : String) (declared : schema.fields.find? key = some (.required, .text true)) :
      replacement ∉ (document.field key).display.toList := by
    obtain ⟨fields, rfl, hfields, -⟩ := hconforms
    rcases Schema.conforms_of_find? hfields declared with ⟨-, hoptional⟩ | ⟨s, hs, -⟩
    · exact absurd rfl hoptional
    · have hfield := undamaged.field key
      rw [hs] at hfield ⊢
      exact hfield.of_string
  constructor
  · rw [hcarried.driverName]
    exact hshown "driverName" rfl
  · rw [hcarried.busId]
    exact hshown "busId" rfl
  · have hunique := hcarried.unique
    generalize (Device.ofValue (Schema.normalized schema document)).unique = name at hunique
    generalize hgiven : (document.field "unique").given? = given at hunique
    cases hunique with
    | none => decide
    | some hname =>
      have hfield := undamaged.field "unique"
      rw [Value.eq_of_given? hgiven, hname] at hfield
      exact hfield.of_string
  · intro a ha
    obtain ⟨i, hi, rfl⟩ := List.getElem_of_mem ha
    have hareas := hcarried.memoryTracker.areas
    have hitem : i < ((document.field "memoryTracker").field "areas").items.length :=
      hareas.length_eq ▸ hi
    have hwhole := ((undamaged.field "memoryTracker").field "areas").of_item
      (List.getElem_mem hitem)
    exact MemoryArea.undamaged_of_carries (hareas.get hitem hi) hwhole

namespace Report

variable {s : Settings} {limit capacity : Nat} {d : Device}

theorem Identity.rendered_undamaged (bounds : s.bounds = Bounds.ofCounts limit capacity)
    (undamaged : d.Undamaged) : ∃ out, Identity.report.rendered s d = .ok out ∧
      (out.truncated = false → out.text.toList.count replacement = 0) := by
  have hpieces : [(line d : Piece)] = [Text.ofString (line d)].map Except.ok := rfl
  have hline := replaced_line undamaged.driver undamaged.bus undamaged.unique
  refine ⟨_, rendered_of_lists (lists_ofPieces _ _ _) rfl bounds hpieces, fun whole => ?_⟩
  rw [Bounds.replaced_printAll whole, List.map_singleton, List.sum_singleton, hline]

theorem MemoryAreas.rendered_undamaged (bounds : s.bounds = Bounds.ofCounts limit capacity)
    (undamaged : d.Undamaged) : ∃ out, MemoryAreas.report.rendered s d = .ok out ∧
      (out.truncated = false →
        out.text.toList.count replacement = d.memoryTracker.areas.countP cutsName) := by
  obtain ⟨ts, hpieces, hsum⟩ := replaced_pieces s undamaged.areas
  refine ⟨_, rendered_of_lists (lists_ofPieces _ _ _) rfl bounds hpieces, fun whole => ?_⟩
  rw [Bounds.replaced_printAll whole, hsum]

theorem Plain.rendered_undamaged {r : Report} (plain : r.Plain) (h : r ∈ builtin true)
    (bounds : s.bounds = Bounds.ofCounts limit capacity) (quiet : d.Quiet) :
    ∃ out, r.rendered s d = .ok out ∧
      (out.truncated = false → out.text.toList.count replacement = 0) := by
  obtain ⟨ts, hout, hplain⟩ := plain s (r.lockedFor d) _ (Bounds.sound_buffer limit capacity)
  have hrendered := rendered_quiet h bounds quiet
  rw [hout] at hrendered
  refine ⟨_, hrendered, fun whole => ?_⟩
  rw [Bounds.replaced_printAll whole, Text.sum_replaced_plain hplain]

/-- Where the texts of a snapshot have no replacement character and nothing is dropped, no report
shows one but the report on memory areas, which shows one for each name that it cuts within a
character. -/
theorem replaced_where_names_are_cut (machine : String) (config : Value) (s : Settings)
    (accepted : Settings.resolve machine config = .ok s) (document : Value) (source : String)
    (d : Device) (loaded : Snapshot.load document source = .ok d) (undamaged : document.Undamaged) :
    ∀ r ∈ builtin true, ∃ out, r.rendered s d = .ok out ∧
      (out.truncated = false → out.text.toList.count replacement =
        if r.name = MemoryAreas.report.name then
          d.memoryTracker.areas.countP MemoryAreas.cutsName
        else 0) := by
  obtain ⟨limit, capacity, hbounds, -⟩ := Settings.bounds_of_resolve accepted
  have hundamaged := Snapshot.undamaged_of_load loaded undamaged
  intro r hr
  rcases builtin_plain hr with rfl | rfl | ⟨hplain, hname⟩
  · exact Identity.rendered_undamaged hbounds hundamaged
  · exact MemoryAreas.rendered_undamaged hbounds hundamaged
  · rw [if_neg hname]
    exact hplain.rendered_undamaged hr hbounds (Snapshot.quiet_of_load loaded)

/-- Names with a character outside the basic plane: the area's has nine characters in ten units. -/
def paired : Value := named "gfx😀" "abcdefgh😀"

def pairedDevice : Device := namedDevice "gfx😀" "abcdefgh😀"

theorem load_paired : Snapshot.load paired = .ok pairedDevice :=
  Snapshot.load_eq_ok.mpr ⟨(Schema.issues_eq_nil _ [] _).mp rfl, rfl⟩

theorem paired_undamaged : paired.Undamaged := by decide

theorem cutsName_paired : pairedDevice.memoryTracker.areas.countP MemoryAreas.cutsName = 1 := by
  decide

theorem whole_name : ∃ out, Identity.report.rendered Settings.defaults pairedDevice = .ok out ∧
    out.truncated = false ∧ out.lines = 1 :=
  rendered_whole (lists_ofPieces _ _ _) rfl rfl (by decide +kernel) (by decide +kernel)

theorem whole_areas : ∃ out, MemoryAreas.report.rendered Settings.defaults pairedDevice = .ok out ∧
    out.truncated = false ∧ out.lines = 7 :=
  rendered_whole (lists_ofPieces _ _ _) rfl (by decide +kernel) (by decide +kernel)
    (by decide +kernel)

/-- The character comes through in the driver's name, and not where it takes the ninth and the
tenth unit of an area's name. -/
theorem replaced_in_one_name :
    Settings.resolve "x64" .missing = .ok Settings.defaults ∧
      Snapshot.load paired = .ok pairedDevice ∧ paired.Undamaged ∧
      (∃ out, Identity.report.rendered Settings.defaults pairedDevice = .ok out ∧
        out.truncated = false ∧ out.text.toList.count replacement = 0) ∧
      ∃ out, MemoryAreas.report.rendered Settings.defaults pairedDevice = .ok out ∧
        out.truncated = false ∧ out.text.toList.count replacement = 1 := by
  have hshown := replaced_where_names_are_cut _ .missing Settings.defaults
    Settings.resolve_missing _ _ _ load_paired paired_undamaged
  obtain ⟨out, hout, hcount⟩ := hshown Identity.report List.mem_cons_self
  obtain ⟨out', hout', hcount'⟩ := hshown MemoryAreas.report
    (List.mem_cons_of_mem _ List.mem_cons_self)
  obtain ⟨_, hsame, hwhole, -⟩ := whole_name
  obtain ⟨_, hsame', hwhole', -⟩ := whole_areas
  obtain rfl := Except.ok.inj (hsame.symm.trans hout)
  obtain rfl := Except.ok.inj (hsame'.symm.trans hout')
  exact ⟨Settings.resolve_missing, load_paired, paired_undamaged, ⟨_, hout, hwhole, hcount hwhole⟩,
    _, hout', hwhole', (hcount' hwhole').trans cutsName_paired⟩

/-- A name of nine characters in ten units loses its last one. -/
theorem name_cut_within_character :
    Settings.resolve "x64" .missing = .ok Settings.defaults ∧
      Snapshot.load paired = .ok pairedDevice ∧ paired.Undamaged ∧
      MemoryAreas.report ∈ builtin true ∧
      ∃ out, MemoryAreas.report.rendered Settings.defaults pairedDevice = .ok out ∧
        out.truncated = false ∧ replacement ∈ out.text.toList := by
  obtain ⟨limit, capacity, hbounds, -⟩ := Settings.bounds_of_resolve Settings.resolve_missing
  obtain ⟨out, hout, hcount⟩ := MemoryAreas.rendered_undamaged hbounds
    (Snapshot.undamaged_of_load load_paired paired_undamaged)
  obtain ⟨_, hsame, hwhole, -⟩ := whole_areas
  obtain rfl := Except.ok.inj (hsame.symm.trans hout)
  refine ⟨Settings.resolve_missing, load_paired, paired_undamaged,
    List.mem_cons_of_mem _ List.mem_cons_self, _, hout, hwhole, ?_⟩
  have hone := hcount hwhole
  rw [cutsName_paired] at hone
  exact List.count_pos_iff.mp (hone ▸ Nat.one_pos)

end Report

end DeviceReports
