import DeviceReports.Proofs.TreeCalls

/-!
# Device directories

A device is mounted under the text of its index, which holds no separator. So a path says
whose it is: neither another index that begins alike nor a name with separators leads to the
same one. A tree on which devices of different indexes are mounted is determined by their
list, and loses nothing of the others when one of them leaves it.
-/

set_option autoImplicit false

namespace DeviceReports

open EntryTree

/-! ### Paths -/

theorem Number.text_ofCount {n : Nat} (h : n ≤ exactBound) : (ofCount n).text = toString n := by
  change String.ofList (Decimal.text (n : Rat)) = _
  have hsign : ¬ (n : Rat) < 0 := by exact_mod_cast Nat.not_lt_zero n
  rw [Nat.toString_eq_ofList_toDigits]
  simp [Decimal.text, h, hsign]

theorem toString_injective : Function.Injective (toString : Nat → String) := by
  intro m n h
  have hdigits : Nat.toDigits 10 m = Nat.toDigits 10 n := by
    rw [← Nat.toList_repr, ← Nat.toList_repr]
    exact congrArg String.toList h
  rw [← Nat.ofDigitChars_ten_toDigits (n := m), hdigits, Nat.ofDigitChars_ten_toDigits]

theorem slash_notMem_toString (n : Nat) : '/' ∉ (toString n).toList := by
  intro h
  rw [Nat.toString_eq_ofList_toDigits, String.toList_ofList] at h
  exact absurd (Nat.isDigit_of_mem_toDigits (by decide) (by decide) h) (by decide)

/-- The first separator splits a path in one way only. -/
theorem append_slash_inj {a b x y : List Char} (ha : '/' ∉ a) (hb : '/' ∉ b)
    (h : a ++ '/' :: x = b ++ '/' :: y) : a = b ∧ x = y := by
  induction a generalizing b with
  | nil =>
    cases b with
    | nil => exact ⟨rfl, List.tail_eq_of_cons_eq h⟩
    | cons c b => exact absurd (List.head_eq_of_cons_eq h ▸ List.mem_cons_self) hb
  | cons c a ih =>
    cases b with
    | nil => exact absurd (List.head_eq_of_cons_eq h ▸ List.mem_cons_self) ha
    | cons d b =>
      obtain ⟨hab, hxy⟩ := ih (fun hm => ha (List.mem_cons_of_mem _ hm))
        (fun hm => hb (List.mem_cons_of_mem _ hm)) (List.tail_eq_of_cons_eq h)
      exact ⟨by rw [List.head_eq_of_cons_eq h, hab], hxy⟩

/-- The directory of the device with an index. -/
def home (index : Nat) : String := defaultRoot ++ "/" ++ toString index

theorem toList_home (n : Nat) :
    (home n).toList = "/dri/".toList ++ (toString n).toList := by
  rw [home, String.toList_append]
  rfl

theorem home_injective : Function.Injective home := by
  intro m n h
  have hlist := congrArg String.toList h
  rw [toList_home, toList_home] at hlist
  exact toString_injective (String.toList_injective (List.append_cancel_left hlist))

theorem home_ne_root (n : Nat) : home n ≠ defaultRoot := by
  intro h
  have hlength := congrArg (List.length ∘ String.toList) h
  simp [toList_home, defaultRoot] at hlength

theorem join_root (n : Nat) : join defaultRoot (toString n) = home n := rfl

theorem join_home (n : Nat) (name : String) : join (home n) name = home n ++ "/" ++ name := by
  have hne : home n ≠ "/" := by
    intro h
    have hlength := congrArg (List.length ∘ String.toList) h
    simp [toList_home] at hlength
  rw [join, if_neg hne]

theorem toList_join_home (n : Nat) (name : String) :
    (join (home n) name).toList =
      "/dri/".toList ++ ((toString n).toList ++ '/' :: name.toList) := by
  rw [join_home, String.toList_append, String.toList_append, toList_home]
  simp

/-- Indexes hold no separator, so a path shows where its index ends: "1" is not taken for the
beginning of "10", whatever separators the name has. -/
theorem join_home_inj {m n : Nat} {a b : String} :
    join (home m) a = join (home n) b ↔ m = n ∧ a = b := by
  refine ⟨fun h => ?_, fun ⟨hindex, hname⟩ => hindex ▸ hname ▸ rfl⟩
  have hlist := congrArg String.toList h
  rw [toList_join_home, toList_join_home] at hlist
  obtain ⟨hindex, hname⟩ := append_slash_inj (slash_notMem_toString m) (slash_notMem_toString n)
    (List.append_cancel_left hlist)
  exact ⟨toString_injective (String.toList_injective hindex), String.toList_injective hname⟩

example : join (home 1) "0/vm" ≠ join (home 10) "/vm" := by decide

theorem join_home_ne_home (m n : Nat) (name : String) : join (home m) name ≠ home n := by
  intro h
  have hlist := congrArg String.toList h
  rw [toList_join_home, toList_home] at hlist
  have hmem : '/' ∈ (toString n).toList := by
    rw [← List.append_cancel_left hlist]
    simp
  exact slash_notMem_toString n hmem

theorem join_home_ne_root (n : Nat) (name : String) : join (home n) name ≠ defaultRoot := by
  intro h
  have hlength := congrArg (List.length ∘ String.toList) h
  simp [toList_join_home, defaultRoot] at hlength

/-! ### Mounted devices -/

theorem Diagnostics.fresh_of_create {δ : Type} {machine : String} {d : Device} {config : Value}
    {replaced : Option (List Report)} {m : Diagnostics δ}
    (created : Diagnostics.create machine d config replaced = .ok m) :
    m.label = d.label ∧ m.directory = none := by
  rw [Diagnostics.create] at created
  rcases hsettings : Settings.resolve machine config with e | settings <;>
    rw [hsettings] at created
  · cases created
  · dsimp only [bind, Except.bind] at created
    split at created <;> cases created
    exact ⟨rfl, rfl⟩

/-- Diagnostics as they are created for a device whose index is a non-negative safe integer. -/
structure Member where
  machine : String
  device : Device
  config : Value
  replaced : Option (List Report)
  diagnostics : Diagnostics String
  created : Diagnostics.create machine device config replaced = .ok diagnostics
  index : Nat
  index_lt : index < Number.exactBound
  index_eq : device.index = .number (.ofCount index)

theorem firstRepeat?_eq_none {seen names : List String} (distinct : names.Nodup)
    (unseen : ∀ name ∈ names, name ∉ seen) : firstRepeat? seen names = none := by
  induction names generalizing seen with
  | nil => rfl
  | cons name rest ih =>
    obtain ⟨hfirst, hrest⟩ := List.nodup_cons.mp distinct
    rw [firstRepeat?, if_neg (unseen name List.mem_cons_self)]
    refine ih hrest fun other hother hseen => ?_
    rcases List.mem_cons.mp hseen with hsame | hold
    · exact hfirst (hsame ▸ hother)
    · exact unseen other (List.mem_cons_of_mem _ hother) hold

/-- Diagnostics are created under accepted settings for reports of distinct names. -/
theorem Diagnostics.exists_of_distinct {δ : Type} {machine : String} (d : Device) {config : Value}
    {settings : Settings} (resolved : Settings.resolve machine config = .ok settings)
    {replaced : Option (List Report)}
    (distinct : (Report.names (replaced.getD (Report.builtin settings.debug))).Nodup) :
    ∃ m : Diagnostics δ, Diagnostics.create machine d config replaced = .ok m ∧
      m.reports = replaced.getD (Report.builtin settings.debug) := by
  have hnone : firstRepeat? [] (Report.names (replaced.getD (Report.builtin settings.debug))) =
      none := firstRepeat?_eq_none distinct fun _ _ => List.not_mem_nil
  rw [Diagnostics.create, resolved]
  dsimp only [bind, Except.bind]
  split
  next name hname => cases hnone.symm.trans hname
  next => exact ⟨_, rfl, rfl⟩

/-- Every device with such an index can have reports of any distinct names. -/
theorem Member.exists_of_distinct {machine : String} (device : Device) {config : Value}
    {settings : Settings} (resolved : Settings.resolve machine config = .ok settings)
    {reports : List Report} (distinct : (Report.names reports).Nodup) {index : Nat}
    (index_lt : index < Number.exactBound)
    (index_eq : device.index = .number (.ofCount index)) :
    ∃ m : Member, m.index = index ∧ m.diagnostics.reports = reports := by
  obtain ⟨diagnostics, created, hreports⟩ := Diagnostics.exists_of_distinct device resolved
    (show (Report.names ((some reports).getD _)).Nodup from distinct)
  exact ⟨⟨machine, device, config, some reports, diagnostics, created, index, index_lt, index_eq⟩,
    rfl, hreports⟩

namespace Member

variable (m : Member)

theorem label_eq : m.diagnostics.label = toString m.index := by
  rw [(Diagnostics.fresh_of_create m.created).1, Device.label, m.index_eq]
  exact Number.text_ofCount (Nat.le_of_lt m.index_lt)

theorem unmounted : m.diagnostics.directory = none := (Diagnostics.fresh_of_create m.created).2

/-- The diagnostics as they are when mounted. -/
def mounted : Diagnostics String := { m.diagnostics with directory := some (home m.index) }

theorem join_directoryName : join defaultRoot m.diagnostics.directoryName = home m.index := by
  rw [Diagnostics.directoryName, label_eq, join_root]

theorem unmount : { m.mounted with directory := none } = m.diagnostics := by
  have hnone := m.unmounted
  rw [mounted]
  rcases hm : m.diagnostics with ⟨label, settings, reports, directory, distinct⟩
  rw [hm] at hnone
  exact congrArg (Diagnostics.mk label settings reports · distinct) hnone.symm

/-- The entries of a mounted device: each refers to its owner and to a report of it. -/
def entries {ι : Type} (owner : ι) : List (String × ι × String) :=
  m.diagnostics.names.map fun name => (join (home m.index) name, (owner, name))

end Member

theorem Diagnostics.reader_of_mem {δ : Type} {m : Diagnostics δ} {name : String}
    (h : name ∈ m.names) : ∃ r, m.reader name = .ok r := by
  obtain ⟨report, hreport, hname⟩ := List.mem_map.mp h
  rcases hfind : m.reports.find? (·.name == name) with _ | r
  · exact absurd (List.find?_eq_none.mp hfind report hreport) (by simpa using hname)
  · exact ⟨_, by rw [reader, Diagnostics.report, hfind]; rfl⟩

section Laid

variable {ι : Type} (members : ι → Member)

/-- The tree on which the given devices are mounted, in the order of their mounts. -/
def laidTree (mounted : List ι) : EntryTree (ι × String) where
  root := defaultRoot
  directories := defaultRoot :: mounted.map fun i => home (members i).index
  entries := mounted.flatMap fun i => (members i).entries i

variable {members} {mounted : List ι} {i : ι} {name : String}

theorem mem_entries_laid {path : String} {owner : ι} :
    (path, (owner, name)) ∈ (laidTree members mounted).entries ↔
      owner ∈ mounted ∧ name ∈ (members owner).diagnostics.names ∧
        path = join (home (members owner).index) name := by
  simp only [laidTree, Member.entries, List.mem_flatMap, List.mem_map, Prod.mk.injEq]
  constructor
  · rintro ⟨i, hi, n, hn, rfl, rfl, rfl⟩
    exact ⟨hi, hn, rfl⟩
  · rintro ⟨howner, hname, rfl⟩
    exact ⟨owner, howner, name, hname, rfl, rfl, rfl⟩

/-- A device directory is taken by the mounted devices of its index alone. -/
theorem exists?_home {n : Nat} : (laidTree members mounted).exists? (home n) = true ↔
    ∃ j ∈ mounted, (members j).index = n := by
  rw [exists?_iff]
  constructor
  · rintro (hdirectory | hentry)
    · rcases List.mem_cons.mp hdirectory with hroot | hhome
      · exact absurd hroot (home_ne_root n)
      · obtain ⟨j, hj, hsame⟩ := List.mem_map.mp hhome
        exact ⟨j, hj, home_injective hsame⟩
    · obtain ⟨⟨path, owner, name⟩, hmem, hpath⟩ := List.mem_map.mp hentry
      obtain ⟨-, -, rfl⟩ := mem_entries_laid.mp hmem
      exact absurd hpath (join_home_ne_home _ _ _)
  · rintro ⟨j, hj, rfl⟩
    exact Or.inl (List.mem_cons_of_mem _ (List.mem_map_of_mem hj))

theorem below_notMem_directories {n : Nat} :
    join (home n) name ∉ (laidTree members mounted).directories := by
  intro h
  rcases List.mem_cons.mp h with hroot | hhome
  · exact join_home_ne_root n name hroot
  · obtain ⟨j, -, hsame⟩ := List.mem_map.mp hhome
    exact join_home_ne_home _ _ _ hsame.symm

/-- An entry below a device directory belongs to a mounted device of its index. -/
theorem owner_of_below {n : Nat}
    (h : join (home n) name ∈ (laidTree members mounted).entries.map Prod.fst) :
    ∃ j ∈ mounted, (members j).index = n := by
  obtain ⟨⟨path, owner, other⟩, hmem, hpath⟩ := List.mem_map.mp h
  obtain ⟨howner, -, rfl⟩ := mem_entries_laid.mp hmem
  exact ⟨owner, howner, (join_home_inj.mp hpath).1⟩

/-- Mounted devices have indexes of their own. -/
def Apart (members : ι → Member) (mounted : List ι) : Prop :=
  (mounted.map fun i => (members i).index).Nodup

theorem Apart.eq_of_index {i j : ι} (apart : Apart members mounted) (hi : i ∈ mounted)
    (hj : j ∈ mounted) (h : (members i).index = (members j).index) : i = j :=
  List.inj_on_of_nodup_map apart hi hj h

theorem Apart.nodup (apart : Apart members mounted) : mounted.Nodup := List.Nodup.of_map _ apart

theorem Apart.append (apart : Apart members mounted)
    (free : ∀ j ∈ mounted, (members j).index ≠ (members i).index) :
    Apart members (mounted ++ [i]) := by
  rw [Apart, List.map_append, List.nodup_append]
  refine ⟨apart, List.nodup_singleton _, ?_⟩
  intro a ha b hb
  obtain ⟨j, hj, rfl⟩ := List.mem_map.mp ha
  rw [List.mem_singleton.mp hb]
  exact free j hj

theorem Apart.filter (apart : Apart members mounted) (keep : ι → Bool) :
    Apart members (mounted.filter keep) :=
  List.Nodup.sublist (List.Sublist.map _ List.filter_sublist) apart

theorem Apart.directories_nodup (apart : Apart members mounted) :
    (laidTree members mounted).directories.Nodup := by
  refine List.nodup_cons.mpr ⟨fun hroot => ?_, ?_⟩
  · obtain ⟨i, -, hsame⟩ := List.mem_map.mp hroot
    exact home_ne_root _ hsame
  · have hmap : (mounted.map fun i => home (members i).index) =
        (mounted.map fun i => (members i).index).map home := by rw [List.map_map]; rfl
    rw [hmap]
    exact List.Nodup.map home_injective apart

theorem Apart.paths_nodup (apart : Apart members mounted) :
    ((laidTree members mounted).entries.map Prod.fst).Nodup := by
  rw [laidTree, List.map_flatMap, List.nodup_flatMap]
  constructor
  · intro i _
    have hpaths : ((members i).entries i).map Prod.fst =
        (members i).diagnostics.names.map (join (home (members i).index)) := by
      rw [Member.entries, List.map_map]; rfl
    rw [hpaths]
    exact List.Nodup.map (join_injective _) (members i).diagnostics.names_nodup
  · refine List.Pairwise.imp_of_mem ?_ apart.nodup
    intro i j hi hj hne path hpi hpj
    obtain ⟨⟨_, _, a⟩, ha, rfl⟩ := List.mem_map.mp hpi
    obtain ⟨⟨_, _, b⟩, hb, hsame⟩ := List.mem_map.mp hpj
    obtain ⟨_, _, hai⟩ := List.mem_map.mp ha
    obtain ⟨_, _, hbj⟩ := List.mem_map.mp hb
    cases hai
    cases hbj
    exact hne (apart.eq_of_index hi hj (join_home_inj.mp hsame).1.symm)

theorem entries_owned (m : Member) (owner : ι) {e : String × ι × String}
    (h : e ∈ m.entries owner) : e.2.1 = owner := by
  obtain ⟨name, -, rfl⟩ := List.mem_map.mp h
  rfl

/-- Without the entries of one owner the tree holds those of the others, in their order. -/
theorem filter_owner [DecidableEq ι] (mounted : List ι) (i : ι) :
    (laidTree members mounted).entries.filter (·.2.1 ≠ i) =
      (laidTree members (mounted.filter (· ≠ i))).entries := by
  simp only [laidTree]
  induction mounted with
  | nil => rfl
  | cons j rest ih =>
    rw [List.flatMap_cons, List.filter_append, ih]
    by_cases hsame : j = i
    · have hnone : ((members j).entries j).filter (·.2.1 ≠ i) = [] :=
        List.filter_eq_nil_iff.mpr fun e he => by simpa [entries_owned _ _ he] using hsame
      rw [hnone, List.nil_append, List.filter_cons_of_neg (by simpa using hsame)]
    · have hall : ((members j).entries j).filter (·.2.1 ≠ i) = (members j).entries j :=
        List.filter_eq_self.mpr fun e he => by simpa [entries_owned _ _ he] using hsame
      rw [hall, List.filter_cons_of_pos (by simpa using hsame), List.flatMap_cons]

/-- The paths of a mounted device are those of its own entries. -/
theorem Apart.path_mem_iff (apart : Apart members mounted) (hi : i ∈ mounted)
    {e : String × ι × String} (he : e ∈ (laidTree members mounted).entries) :
    e.1 ∈ (members i).diagnostics.names.map (join (home (members i).index)) ↔ e.2.1 = i := by
  obtain ⟨path, owner, name⟩ := e
  obtain ⟨howner, hname, rfl⟩ := mem_entries_laid.mp he
  constructor
  · intro hpath
    obtain ⟨other, -, hsame⟩ := List.mem_map.mp hpath
    exact apart.eq_of_index howner hi (join_home_inj.mp hsame).1.symm
  · rintro rfl
    exact List.mem_map_of_mem hname

theorem Apart.dropEntries_laid [DecidableEq ι] (apart : Apart members mounted) (hi : i ∈ mounted) :
    (laidTree members mounted).dropEntries
        ((members i).diagnostics.names.map (join (home (members i).index))) =
      { laidTree members mounted with
        entries := (laidTree members (mounted.filter (· ≠ i))).entries } := by
  have hfilter : (laidTree members mounted).entries.filter
      (·.1 ∉ (members i).diagnostics.names.map (join (home (members i).index))) =
      (laidTree members mounted).entries.filter (·.2.1 ≠ i) :=
    List.filter_congr fun e he => by simp only [apart.path_mem_iff hi he, ne_eq]
  rw [dropEntries, hfilter, filter_owner]

theorem Apart.filter_directories [DecidableEq ι] (apart : Apart members mounted)
    (hi : i ∈ mounted) :
    (laidTree members mounted).directories.filter (· != home (members i).index) =
      (laidTree members (mounted.filter (· ≠ i))).directories := by
  have hroot : (defaultRoot != home (members i).index) = true :=
    bne_iff_ne.mpr (home_ne_root _).symm
  change (defaultRoot :: mounted.map fun j => home (members j).index).filter _ = _
  rw [List.filter_cons, if_pos hroot, List.filter_map]
  refine congrArg (defaultRoot :: List.map _ ·) (List.filter_congr fun j hj => ?_)
  have hiff : home (members j).index = home (members i).index ↔ j = i :=
    ⟨fun h => apart.eq_of_index hj hi (home_injective h), fun h => by rw [h]⟩
  rw [Bool.eq_iff_iff]
  simp only [Function.comp_apply, bne_iff_ne, ne_eq, decide_eq_true_eq, hiff]

theorem laidTree_append (mounted : List ι) (i : ι) :
    laidTree members (mounted ++ [i]) =
      { laidTree members mounted with
        directories := (laidTree members mounted).directories ++ [home (members i).index]
        entries := (laidTree members mounted).entries ++ (members i).entries i } := by
  simp [laidTree]

/-- The tree without a device: its entries are dropped, and then its directory. -/
theorem Apart.laidTree_filter [DecidableEq ι] (apart : Apart members mounted) (hi : i ∈ mounted) :
    ((laidTree members mounted).dropEntries
        ((members i).diagnostics.names.map (join (home (members i).index)))).dropDirectory
          (home (members i).index) =
      laidTree members (mounted.filter (· ≠ i)) := by
  rw [apart.dropEntries_laid hi, dropDirectory]
  dsimp only
  rw [apart.filter_directories hi]
  rfl

end Laid

end DeviceReports
