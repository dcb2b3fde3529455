import DeviceReports.Proofs.DeviceDirectories

/-!
# Shapes of trees

A tree keeps its paths in flat lists, and nothing in them says what lies below what. Where every
name is one component of a path, they hang together all the same: nothing is a directory and an
entry at once, and every path but the root joins a name to a directory that is there. So a path
below another can be followed upwards, name by name, until it gets to a child of that other. The
root itself may be any path.
-/

set_option autoImplicit false

namespace DeviceReports.EntryTree

variable {ρ : Type} {p q r parent name other path : String} {kind : EntryKind}

/-! ### Paths below a path -/

/-- A name that is one component of a path. -/
def Named (name : String) : Prop := name ≠ "" ∧ '/' ∉ name.toList

instance : DecidablePred Named := fun _ => inferInstanceAs (Decidable (_ ∧ _))

/-- Whether a path goes on below another. -/
def Under (p q : String) : Prop := (p ++ "/").toList <+: q.toList

instance (p q : String) : Decidable (Under p q) := inferInstanceAs (Decidable (_ <+: _))

/-- A path that ends in a name: neither the topmost directory nor the empty path. -/
def Proper (p : String) : Prop := p ≠ "" ∧ p ≠ "/"

/-- What the paths in a directory have before the separator and their name. -/
def stem (directory : String) : List Char := if directory = "/" then [] else directory.toList

theorem toList_join_stem (r name : String) :
    (join r name).toList = stem r ++ '/' :: name.toList := by
  unfold join stem
  split_ifs <;> simp

theorem under_iff : Under p q ↔ ∃ rest, q.toList = p.toList ++ '/' :: rest := by
  rw [Under, String.toList_append]
  constructor
  · rintro ⟨rest, h⟩
    exact ⟨rest, by rw [← h]; simp⟩
  · rintro ⟨rest, h⟩
    exact ⟨rest, by rw [h]; simp⟩

theorem Under.trans (first : Under p q) (second : Under q r) : Under p r := by
  obtain ⟨a, ha⟩ := under_iff.mp first
  obtain ⟨b, hb⟩ := under_iff.mp second
  exact under_iff.mpr ⟨a ++ '/' :: b, by rw [hb, ha]; simp⟩

theorem Under.length_lt (h : Under p q) : p.toList.length < q.toList.length := by
  obtain ⟨rest, hrest⟩ := under_iff.mp h
  simp only [hrest, List.length_append, List.length_cons]
  omega

theorem not_under_self (p : String) : ¬ Under p p := fun h => Nat.lt_irrefl _ h.length_lt

theorem Named.length_join (named : Named name) (r : String) :
    r.toList.length < (join r name).toList.length := by
  have hname : 0 < name.toList.length :=
    List.length_pos_iff.mpr fun h => named.1 (String.toList_eq_nil_iff.mp h)
  rw [toList_join_stem, stem]
  split_ifs with htop
  · rw [htop]
    simp only [List.nil_append, List.length_cons]
    change 1 < _
    omega
  · simp only [List.length_append, List.length_cons]
    omega

theorem Named.proper_join (named : Named name) (parent : String) : Proper (join parent name) := by
  have hlist := toList_join_stem parent name
  constructor <;> intro h <;> rw [h] at hlist
  · simp at hlist
  · have hname : name.toList = [] := by
      rcases hstem : stem parent with _ | ⟨c, rest⟩ <;> rw [hstem] at hlist
      · exact (List.tail_eq_of_cons_eq hlist).symm
      · cases rest <;> cases List.tail_eq_of_cons_eq hlist
    exact named.1 (String.toList_eq_nil_iff.mp hname)

/-- The last separator splits a path in one way only. -/
theorem last_slash_inj {a b x y : List Char} (hx : '/' ∉ x) (hy : '/' ∉ y)
    (h : a ++ '/' :: x = b ++ '/' :: y) : a = b ∧ x = y := by
  have hreverse : x.reverse ++ '/' :: a.reverse = y.reverse ++ '/' :: b.reverse := by
    simpa using congrArg List.reverse h
  obtain ⟨hxy, hab⟩ := append_slash_inj (by simpa using hx) (by simpa using hy) hreverse
  exact ⟨List.reverse_injective hab, List.reverse_injective hxy⟩

theorem exists_last_slash {s : List Char} (h : '/' ∈ s) : ∃ a x, s = a ++ '/' :: x ∧ '/' ∉ x := by
  obtain ⟨x, a, hsplit, hx⟩ := List.eq_append_cons_of_mem (List.mem_reverse.mpr h)
  refine ⟨a.reverse, x.reverse, ?_, by simpa using hx⟩
  simpa using congrArg List.reverse hsplit

theorem eq_of_stem (proper : Proper p) (h : p.toList = stem r) : p = r := by
  rw [stem] at h
  split_ifs at h
  · exact absurd (String.toList_eq_nil_iff.mp h) proper.1
  · exact String.toList_injective h

/-- What is joined to a directory lies below it, and below what the directory lies below. -/
theorem under_join_iff (proper : Proper p) (named : Named name) :
    Under p (join r name) ↔ p = r ∨ Under p r := by
  rw [under_iff, toList_join_stem]
  constructor
  · rintro ⟨rest, hrest⟩
    by_cases hslash : '/' ∈ rest
    · obtain ⟨a, x, rfl, hx⟩ := exists_last_slash hslash
      have hstem : stem r = p.toList ++ '/' :: a := by
        have hsplit : stem r ++ '/' :: name.toList = (p.toList ++ '/' :: a) ++ '/' :: x := by
          rw [hrest]
          simp
        exact (last_slash_inj named.2 hx hsplit).1
      rw [stem] at hstem
      split_ifs at hstem
      · simp at hstem
      · exact Or.inr (under_iff.mpr ⟨a, hstem⟩)
    · exact Or.inl (eq_of_stem proper (last_slash_inj named.2 hslash hrest).1.symm)
  · rintro (rfl | hunder)
    · exact ⟨name.toList, by rw [stem, if_neg proper.2]⟩
    · obtain ⟨rest, hrest⟩ := under_iff.mp hunder
      have hinner : r ≠ "/" := by
        rintro rfl
        have hlength := hunder.length_lt
        have hempty : p.toList = [] := List.length_eq_zero_iff.mp (by simpa using hlength)
        exact proper.1 (String.toList_eq_nil_iff.mp hempty)
      exact ⟨rest ++ '/' :: name.toList, by rw [stem, if_neg hinner, hrest]; simp⟩

theorem under_join_self (proper : Proper p) (named : Named name) : Under p (join p name) :=
  (under_join_iff proper named).mpr (Or.inl rfl)

/-- A path joins a name to one directory only, as far as directories are proper paths. -/
theorem eq_of_join_eq (proper : Proper p) (named : Named name) (other_named : Named other)
    (h : join p name = join r other) : p = r := by
  have hlist := congrArg String.toList h
  rw [toList_join_stem, toList_join_stem, stem, if_neg proper.2] at hlist
  exact eq_of_stem proper (last_slash_inj named.2 other_named.2 hlist).1

/-! ### Listed paths -/

theorem childName?_eq_some_iff : childName? p q = some name ↔ Named name ∧ q = join p name := by
  constructor
  · intro h
    refine ⟨?_, eq_join_of_childName? h⟩
    simp only [childName?] at h
    split_ifs at h with hprefix hbad
    cases h
    rw [not_or] at hbad
    refine ⟨fun hnil => hbad.1 ?_, fun hslash => hbad.2 ?_⟩
    · simpa using congrArg String.toList hnil
    · simpa using hslash
  · rintro ⟨named, rfl⟩
    have hdrop : (join p name).toList.drop (join p "").toList.length = name.toList := by
      rw [toList_join p name, List.drop_left]
    have hprefix : (join p "").toList.isPrefixOf (join p name).toList = true := by
      rw [toList_join p name, List.isPrefixOf_iff_prefix]
      exact List.prefix_append _ _
    have hbad : ¬ (name.toList.isEmpty = true ∨ name.toList.contains '/' = true) := by
      simpa [Named] using named
    simp only [childName?, hdrop, if_pos hprefix]
    rw [if_neg hbad, String.ofList_toList]

/-- The paths of a kind. -/
def paths (t : EntryTree ρ) : EntryKind → List String
  | .directory => t.directories
  | .file => t.entries.map Prod.fst

/-- A directory lists what joins a single name to it. -/
theorem mem_list_iff {t : EntryTree ρ} {c : Listed} :
    c ∈ t.list p ↔ Named c.name ∧ join p c.name ∈ t.paths c.kind := by
  obtain ⟨name, kind⟩ := c
  rw [list, List.mem_mergeSort, children, List.mem_append]
  simp only [List.mem_filterMap, Option.map_eq_some_iff, childName?_eq_some_iff, Listed.mk.injEq]
  cases kind with
  | directory =>
    constructor
    · rintro (⟨q, hq, n, ⟨named, rfl⟩, rfl, -⟩ | ⟨_, _, _, _, _, hkind⟩)
      · exact ⟨named, hq⟩
      · cases hkind
    · rintro ⟨named, hq⟩
      exact Or.inl ⟨join p name, hq, name, ⟨named, rfl⟩, rfl, rfl⟩
  | file =>
    constructor
    · rintro (⟨_, _, _, _, _, hkind⟩ | ⟨e, he, n, ⟨named, hpath⟩, rfl, -⟩)
      · cases hkind
      · exact ⟨named, hpath ▸ List.mem_map_of_mem he⟩
    · rintro ⟨named, hq⟩
      obtain ⟨e, he, hpath⟩ := List.mem_map.mp hq
      exact Or.inr ⟨e, he, name, ⟨named, hpath⟩, rfl, rfl⟩

/-! ### Restricted trees -/

/-- The tree with those of its paths that are kept. -/
def restrict (t : EntryTree ρ) (keep : EntryKind → String → Prop)
    [∀ kind q, Decidable (keep kind q)] : EntryTree ρ :=
  { t with
    directories := t.directories.filter fun q => keep .directory q
    entries := t.entries.filter fun e => keep .file e.1 }

/-- The tree without a directory and without all that lies below it. An entry at its path stays. -/
def without (t : EntryTree ρ) (p : String) : EntryTree ρ :=
  { t with
    directories := t.directories.filter fun q => ¬ (q = p ∨ Under p q)
    entries := t.entries.filter fun e => ¬ Under p e.1 }

section Restrict

variable {t : EntryTree ρ} {keep also : EntryKind → String → Prop}
  [∀ kind q, Decidable (keep kind q)] [∀ kind q, Decidable (also kind q)]

theorem mem_paths_restrict :
    q ∈ (t.restrict keep).paths kind ↔ q ∈ t.paths kind ∧ keep kind q := by
  cases kind with
  | directory => simp [paths, restrict]
  | file =>
    simp only [paths, restrict, List.mem_map, List.mem_filter, decide_eq_true_eq]
    constructor
    · rintro ⟨e, ⟨he, hkeep⟩, rfl⟩
      exact ⟨⟨e, he, rfl⟩, hkeep⟩
    · rintro ⟨⟨e, he, rfl⟩, hkeep⟩
      exact ⟨e, ⟨he, hkeep⟩, rfl⟩

theorem restrict_restrict : (t.restrict keep).restrict also =
    t.restrict fun kind q => keep kind q ∧ also kind q := by
  simp only [restrict, List.filter_filter, Bool.decide_and, Bool.and_comm]

theorem restrict_congr (h : ∀ kind, ∀ q ∈ t.paths kind, keep kind q ↔ also kind q) :
    t.restrict keep = t.restrict also := by
  have hdirectories : t.directories.filter (fun q => keep .directory q) =
      t.directories.filter fun q => also .directory q :=
    List.filter_congr fun q hq => decide_eq_decide.mpr (h .directory q hq)
  have hentries : t.entries.filter (fun e => keep .file e.1) =
      t.entries.filter fun e => also .file e.1 :=
    List.filter_congr fun e he => decide_eq_decide.mpr (h .file e.1 (List.mem_map_of_mem he))
  rw [restrict, hdirectories, hentries]
  rfl

theorem restrict_eq_self (h : ∀ kind, ∀ q ∈ t.paths kind, keep kind q) : t.restrict keep = t := by
  have hdirectories : t.directories.filter (fun q => keep .directory q) = t.directories :=
    List.filter_eq_self.mpr fun q hq => decide_eq_true (h .directory q hq)
  have hentries : t.entries.filter (fun e => keep .file e.1) = t.entries :=
    List.filter_eq_self.mpr fun e he => decide_eq_true (h .file e.1 (List.mem_map_of_mem he))
  rw [restrict, hdirectories, hentries]

theorem dropEntry_eq_restrict (t : EntryTree ρ) (p : String) :
    t.dropEntry p = t.restrict fun kind q => ¬ (kind = .file ∧ q = p) := by
  simp [dropEntry, restrict, bne, beq_eq_decide]

theorem dropDirectory_eq_restrict (t : EntryTree ρ) (p : String) :
    t.dropDirectory p = t.restrict fun kind q => ¬ (kind = .directory ∧ q = p) := by
  simp [dropDirectory, restrict, bne, beq_eq_decide]

/-- What goes with a directory: what lies below it, and the directory itself. -/
def Taken (p : String) (kind : EntryKind) (q : String) : Prop :=
  Under p q ∨ (kind = .directory ∧ q = p)

instance (p : String) (kind : EntryKind) (q : String) : Decidable (Taken p kind q) :=
  inferInstanceAs (Decidable (_ ∨ _))

theorem without_eq_restrict (t : EntryTree ρ) (p : String) :
    t.without p = t.restrict fun kind q => ¬ Taken p kind q := by
  simp [without, restrict, Taken, Or.comm]

/-- What goes with a child of a directory: with a directory all below it, a file goes alone. -/
def TakenWith (p : String) (c : Listed) (kind : EntryKind) (q : String) : Prop :=
  match c.kind with
  | .directory => Taken (join p c.name) kind q
  | .file => kind = .file ∧ q = join p c.name

instance (p : String) (c : Listed) (kind : EntryKind) (q : String) :
    Decidable (TakenWith p c kind q) := by
  unfold TakenWith
  split <;> infer_instance

theorem under_of_takenWith {c : Listed} (proper : Proper p) (named : Named c.name)
    (taken : TakenWith p c kind q) : Under p q := by
  have hchild := under_join_self proper named
  unfold TakenWith at taken
  split at taken
  · rcases taken with hunder | ⟨-, rfl⟩
    · exact hchild.trans hunder
    · exact hchild
  · exact taken.2 ▸ hchild

end Restrict

/-! ### Trees in shape -/

/-- Whether a path joins a name to a directory that is there. -/
def Placed (t : EntryTree ρ) (path : String) : Prop :=
  ∃ parent ∈ t.directories, ∃ name, Named name ∧ path = join parent name

/-- The paths of a tree hang together: the root is there, nothing is a directory and an entry at
once, and every other path stands in a directory of the tree. -/
structure Shape (t : EntryTree ρ) : Prop where
  root_mem : t.root ∈ t.directories
  apart : ∀ path ∈ t.paths .directory, path ∉ t.paths .file
  placed : ∀ kind, ∀ path ∈ t.paths kind, path = t.root ∨ t.Placed path

namespace Shape

variable {t : EntryTree ρ} {keep : EntryKind → String → Prop} [∀ kind q, Decidable (keep kind q)]

theorem new (root : String) : Shape (EntryTree.new root : EntryTree ρ) where
  root_mem := List.mem_singleton_self root
  apart := nofun
  placed kind path h := by
    cases kind with
    | directory => exact Or.inl (List.mem_singleton.mp h)
    | file => cases h

/-- A restriction that keeps the root, and with a path the directory it stands in. -/
theorem restrict (shape : t.Shape) (root : keep .directory t.root)
    (closed : ∀ kind r name, Named name → keep kind (join r name) → keep .directory r) :
    (t.restrict keep).Shape where
  root_mem := mem_paths_restrict.mpr ⟨shape.root_mem, root⟩
  apart path hdirectory hfile :=
    shape.apart path (mem_paths_restrict.mp hdirectory).1 (mem_paths_restrict.mp hfile).1
  placed kind path h := by
    obtain ⟨hpath, hkeep⟩ := mem_paths_restrict.mp h
    rcases shape.placed kind path hpath with hroot | ⟨parent, hparent, name, named, rfl⟩
    · exact Or.inl hroot
    · have hkept : parent ∈ (t.restrict keep).paths .directory :=
        mem_paths_restrict.mpr ⟨hparent, closed kind parent name named hkeep⟩
      exact Or.inr ⟨parent, hkept, name, named, rfl⟩

theorem dropEntry (shape : t.Shape) (p : String) : (t.dropEntry p).Shape := by
  rw [dropEntry_eq_restrict]
  apply shape.restrict
  · simp
  · simp

theorem without (shape : t.Shape) (proper : Proper p) (inner : ¬ (p = t.root ∨ Under p t.root)) :
    (t.without p).Shape := by
  rw [without_eq_restrict]
  apply shape.restrict
  · rintro (hunder | ⟨-, hroot⟩)
    · exact inner (Or.inr hunder)
    · exact inner (Or.inl hroot.symm)
  · intro kind r name named kept taken
    apply kept
    -- the directory of a path is taken, so the path goes with it
    refine Or.inl ((under_join_iff proper named).mpr ?_)
    rcases taken with hunder | ⟨-, hsame⟩
    · exact Or.inr hunder
    · exact Or.inl hsame.symm

/-- A tree to which one path of a kind is added where it is admitted. -/
theorem add {u : EntryTree ρ} (shape : t.Shape) (named : Named name)
    (admitted : t.admits name parent = true) (root : u.root = t.root) (added : EntryKind)
    (paths : ∀ kind, ∀ path, path ∈ u.paths kind ↔
      path ∈ t.paths kind ∨ (kind = added ∧ path = join parent name)) : u.Shape := by
  obtain ⟨hparent, hfree⟩ := admits_iff.mp admitted
  have hfresh : ∀ kind, join parent name ∉ t.paths kind := by
    intro kind hmem
    cases kind with
    | directory => exact hfree (exists?_iff.mpr (Or.inl hmem))
    | file => exact hfree (exists?_iff.mpr (Or.inr hmem))
  have hold : ∀ path ∈ t.directories, path ∈ u.directories :=
    fun path hpath => (paths .directory path).mpr (Or.inl hpath)
  constructor
  · exact root ▸ hold _ shape.root_mem
  · intro path hdirectory hfile
    rcases (paths .directory path).mp hdirectory with hd | ⟨hd, rfl⟩ <;>
      rcases (paths .file _).mp hfile with hf | ⟨hf, hsame⟩
    · exact shape.apart path hd hf
    · exact hfresh .directory (hsame ▸ hd)
    · exact hfresh .file hf
    · cases hd.trans hf.symm
  · intro kind path hpath
    rcases (paths kind path).mp hpath with hpath | ⟨-, rfl⟩
    · rcases shape.placed kind path hpath with hroot | ⟨r, hr, other, named, rfl⟩
      · exact Or.inl (hroot.trans root.symm)
      · exact Or.inr ⟨r, hold r hr, other, named, rfl⟩
    · exact Or.inr ⟨parent, hold parent hparent, name, named, rfl⟩

/-- No path is shorter than the root. -/
theorem length_root_le (shape : t.Shape) (h : path ∈ t.paths kind) :
    t.root.toList.length ≤ path.toList.length := by
  -- by induction on the length, for a path is longer than the directory it stands in
  induction hlength : path.toList.length using Nat.strongRecOn generalizing path kind with
  | _ n ih =>
    subst hlength
    rcases shape.placed kind path h with rfl | ⟨parent, hparent, name, named, rfl⟩
    · exact Nat.le_refl _
    · have hdirectory : parent ∈ t.paths .directory := hparent
      have hshorter := named.length_join parent
      exact Nat.le_of_lt (Nat.lt_of_le_of_lt (ih _ hshorter hdirectory rfl) hshorter)

/-- A path below a directory goes with one of the children that the directory lists. -/
theorem exists_takenWith (shape : t.Shape) (proper : Proper p) (inner : ¬ Under p t.root)
    (h : path ∈ t.paths kind) (under : Under p path) : ∃ c ∈ t.list p, TakenWith p c kind path := by
  -- upwards from the path, which either stands in the directory or below one that does
  induction hlength : path.toList.length using Nat.strongRecOn generalizing path kind with
  | _ n ih =>
    subst hlength
    rcases shape.placed kind path h with rfl | ⟨parent, hparent, name, named, rfl⟩
    · exact absurd under inner
    · rcases (under_join_iff proper named).mp under with rfl | habove
      · refine ⟨⟨name, kind⟩, mem_list_iff.mpr ⟨named, h⟩, ?_⟩
        cases kind with
        | directory => exact Or.inr ⟨rfl, rfl⟩
        | file => exact ⟨rfl, rfl⟩
      · have hdirectory : parent ∈ t.paths .directory := hparent
        obtain ⟨c, hc, htaken⟩ := ih _ (named.length_join parent) hdirectory habove rfl
        refine ⟨c, hc, ?_⟩
        have hproper := (mem_list_iff.mp hc).1.proper_join p
        unfold TakenWith at htaken ⊢
        split at htaken
        · refine Or.inl ((under_join_iff hproper named).mpr ?_)
          rcases htaken with hunder | ⟨-, hsame⟩
          · exact Or.inr hunder
          · exact Or.inl hsame.symm
        · cases htaken.1

/-- Without what goes with its children, and without itself, a directory is removed with all that
lies below it. -/
theorem restrict_children (shape : t.Shape) (proper : Proper p) (inner : ¬ Under p t.root) :
    (t.restrict fun kind q => ∀ c ∈ t.list p, ¬ TakenWith p c kind q).dropDirectory p =
      t.without p := by
  rw [dropDirectory_eq_restrict, restrict_restrict, without_eq_restrict]
  apply restrict_congr
  intro kind q hq
  constructor
  · rintro ⟨hchildren, hitself⟩ (hunder | hsame)
    · obtain ⟨c, hc, htaken⟩ := shape.exists_takenWith proper inner hq hunder
      exact hchildren c hc htaken
    · exact hitself hsame
  · intro hkept
    refine ⟨fun c hc htaken => hkept (Or.inl ?_), fun hsame => hkept (Or.inr hsame)⟩
    exact under_of_takenWith proper (mem_list_iff.mp hc).1 htaken

/-- Above the root nothing stands but the root. -/
theorem eq_root_of_above (shape : t.Shape) (proper : Proper p) (above : Under p t.root)
    (named : Named name) (h : join p name ∈ t.paths kind) :
    kind = .directory ∧ join p name = t.root := by
  have hroot : join p name = t.root := by
    refine (shape.placed kind _ h).resolve_right ?_
    rintro ⟨parent, hparent, other, other_named, hsame⟩
    have hp : p ∈ t.paths .directory := eq_of_join_eq proper named other_named hsame ▸ hparent
    exact absurd above.length_lt (Nat.not_lt.mpr (shape.length_root_le hp))
  cases kind with
  | directory => exact ⟨rfl, hroot⟩
  | file => exact absurd h (shape.apart _ (hroot ▸ shape.root_mem))

end Shape

end DeviceReports.EntryTree
