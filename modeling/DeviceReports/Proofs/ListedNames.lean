import DeviceReports.Proofs.UnitOrder
import DeviceReports.Proofs.RemovedTrees
import DeviceReports.Proofs.Teardowns
import Mathlib.Data.List.Perm.Basic

/-!
# Listed names

A tree keeps directories and entries apart, each in the order of their creation, and what a
directory lists is merged from both. No path ever stands in a tree twice: a creation is admitted
at a free path only, and a removal takes paths away. So a directory lists every name once, and as
the order of names is strict, the list is told by what stands below the directory, not by how the
tree came about. All this holds under any names, separators in them and the empty name included.
-/

set_option autoImplicit false

namespace DeviceReports

variable {ρ γ : Type}

namespace EntryTree

variable {t u : EntryTree ρ} {path name parent : String} {content : ρ} {kind : EntryKind}
  {c : Listed}

/-! ### Paths that stand once -/

/-- No path stands in a tree twice, as two directories, as two entries or as one of each. -/
def Single (t : EntryTree ρ) : Prop := (t.paths .directory ++ t.paths .file).Nodup

theorem exists?_iff_mem_paths :
    t.exists? path = true ↔ path ∈ t.paths .directory ++ t.paths .file := by
  rw [exists?_iff, List.mem_append]
  rfl

theorem isDirectory_iff_mem_paths : t.isDirectory path = true ↔ path ∈ t.paths .directory := by
  simp [isDirectory, paths]

theorem isSome_content?_iff_mem_paths : (t.content? path).isSome = true ↔ path ∈ t.paths .file := by
  simp [content?, paths]

namespace Single

theorem new (root : String) : Single (EntryTree.new root : EntryTree ρ) := List.nodup_singleton root

/-- A tree to which a free path is added, be it at the end of the directories or of the entries. -/
theorem add (single : t.Single) (free : ¬ t.exists? path = true)
    (added : (u.paths .directory ++ u.paths .file).Perm
      (path :: (t.paths .directory ++ t.paths .file))) :
    u.Single := by
  rw [exists?_iff_mem_paths] at free
  exact added.nodup_iff.mpr (List.nodup_cons.mpr ⟨free, single⟩)

theorem addDirectory (single : t.Single) (added : t.addDirectory name parent = some (path, u)) :
    u.Single := by
  rw [EntryTree.addDirectory] at added
  split_ifs at added with admitted
  cases added
  refine single.add (admits_iff.mp admitted).2 ?_
  simp only [paths, List.append_assoc, List.singleton_append]
  exact List.perm_middle

theorem addEntry (single : t.Single) (added : t.addEntry name parent content = some u) :
    u.Single := by
  rw [EntryTree.addEntry] at added
  split_ifs at added with admitted
  cases added
  refine single.add (admits_iff.mp admitted).2 ?_
  simp only [paths, List.map_append, List.map_cons, List.map_nil, ← List.append_assoc]
  exact List.perm_append_singleton _ _

theorem restrict (single : t.Single) (keep : EntryKind → String → Prop)
    [∀ kind q, Decidable (keep kind q)] : (t.restrict keep).Single :=
  single.sublist (List.filter_sublist.append (List.filter_sublist.map Prod.fst))

theorem dropEntry (single : t.Single) (path : String) : (t.dropEntry path).Single := by
  rw [dropEntry_eq_restrict]
  exact single.restrict _

theorem dropDirectory (single : t.Single) (path : String) : (t.dropDirectory path).Single := by
  rw [dropDirectory_eq_restrict]
  exact single.restrict _

end Single

/-! ### Lists -/

/-- What a directory lists, in the order before the sorting. -/
theorem map_name_children (t : EntryTree ρ) (path : String) : (t.children path).map (·.name) =
    (t.paths .directory ++ t.paths .file).filterMap (childName? path) := by
  simp only [children, paths, List.map_append, List.filterMap_append, List.map_filterMap,
    Option.map_map, List.filterMap_map]
  congr 1 <;> exact List.filterMap_congr fun p _ => Option.map_id'

theorem Single.nodup_names (single : t.Single) (path : String) :
    ((t.list path).map (·.name)).Nodup := by
  have hsorted : ((t.list path).map (·.name)).Perm ((t.children path).map (·.name)) :=
    (List.mergeSort_perm _ _).map _
  rw [hsorted.nodup_iff, map_name_children]
  refine List.Nodup.filterMap (fun p q name hp hq => ?_) single
  rw [eq_join_of_childName? hp, eq_join_of_childName? hq]

/-- A child is before another: its name comes first in the order by units. -/
def Before (a b : Listed) : Prop := Text.ofString a.name < Text.ofString b.name

theorem inOrder_iff_le {a b : Listed} :
    inOrder a b = true ↔ Text.ofString a.name ≤ Text.ofString b.name := Text.not_before_iff_le

theorem pairwise_inOrder (t : EntryTree ρ) (path : String) :
    (t.list path).Pairwise fun a b => inOrder a b = true := by
  apply List.pairwise_mergeSort
  · intro a b c hab hbc
    exact inOrder_iff_le.mpr (List.le_trans (inOrder_iff_le.mp hab) (inOrder_iff_le.mp hbc))
  · intro a b
    rw [Bool.or_eq_true, inOrder_iff_le, inOrder_iff_le]
    exact List.le_total _ _

/-- Names that are listed once are listed in a strict order. -/
theorem Single.pairwise_before (single : t.Single) (path : String) :
    (t.list path).Pairwise Before := by
  have hnames : (t.list path).Pairwise fun a b => a.name ≠ b.name :=
    List.pairwise_map.mp (single.nodup_names path)
  refine (pairwise_inOrder t path).imp₂ (fun a b horder hname => ?_) hnames
  have hunits : Text.ofString a.name ≠ Text.ofString b.name :=
    fun h => hname (Text.ofString_injective h)
  exact Std.lt_of_le_of_ne (inOrder_iff_le.mp horder) hunits

/-- Two trees with the same paths directly below a directory list the same in it. -/
theorem Single.list_eq (single : t.Single) (other : u.Single)
    (same : ∀ name kind, join path name ∈ t.paths kind ↔ join path name ∈ u.paths kind) :
    t.list path = u.list path := by
  have hmem (c : Listed) : c ∈ t.list path ↔ c ∈ u.list path := by
    rw [mem_list_iff, mem_list_iff, same]
  have hperm : (t.list path).Perm (u.list path) :=
    (List.perm_ext_iff_of_nodup (single.nodup_names path).of_map
      (other.nodup_names path).of_map).mpr hmem
  refine hperm.eq_of_pairwise (fun a b _ _ hab hba => ?_) (single.pairwise_before path)
    (other.pairwise_before path)
  exact absurd (List.lt_trans hab hba) (List.lt_irrefl _)

theorem mem_names_iff : name ∈ (t.list path).map (·.name) ↔
    Named name ∧ t.exists? (join path name) = true := by
  rw [exists?_iff_mem_paths, List.mem_append, List.mem_map]
  constructor
  · rintro ⟨⟨name, kind⟩, hlisted, rfl⟩
    obtain ⟨named, hpath⟩ := mem_list_iff.mp hlisted
    cases kind with
    | directory => exact ⟨named, Or.inl hpath⟩
    | file => exact ⟨named, Or.inr hpath⟩
  · rintro ⟨named, hdirectory | hfile⟩
    · exact ⟨⟨name, .directory⟩, mem_list_iff.mpr ⟨named, hdirectory⟩, rfl⟩
    · exact ⟨⟨name, .file⟩, mem_list_iff.mpr ⟨named, hfile⟩, rfl⟩

/-- A listed child is a directory or an entry, as its kind says, and not both. -/
theorem Single.kind_of_mem_list (single : t.Single) (listed : c ∈ t.list path) :
    (c.kind = .directory ↔ t.isDirectory (join path c.name) = true) ∧
      (c.kind = .file ↔ (t.content? (join path c.name)).isSome = true) := by
  have hpath := (mem_list_iff.mp listed).2
  have happart := List.disjoint_of_nodup_append single
  rw [isDirectory_iff_mem_paths, isSome_content?_iff_mem_paths]
  obtain ⟨name, kind⟩ := c
  cases kind with
  | directory => exact ⟨by simpa using hpath, by simpa using happart hpath⟩
  | file => exact ⟨by simpa using fun h => happart h hpath, by simpa using hpath⟩

end EntryTree

/-! ### Calls to a host -/

namespace Gate

open EntryTree

variable {g : Gate γ} {name parent : String}

theorem createDirectory_single (g : Gate γ) (name parent : String) :
    Keeps (ρ := ρ) Single (g.createDirectory name parent) := by
  apply Keeps.through
  intro st single
  rw [Effect.outcome_bind_ok (outcome_tree st)]
  rcases hadd : st.2.addDirectory name parent with _ | ⟨path, u⟩
  · exact single
  · exact single.addDirectory hadd

theorem createEntry_single (g : Gate γ) (name parent : String) (content : ρ) :
    Keeps Single (g.createEntry name parent content) := by
  apply Keeps.through
  intro st single
  rw [Effect.outcome_bind_ok (outcome_tree st)]
  rcases hadd : st.2.addEntry name parent content with _ | u
  · exact single
  · exact single.addEntry hadd

theorem removeEntry_single (g : Gate γ) (name parent : String) :
    Keeps (ρ := ρ) Single (g.removeEntry name parent) :=
  removeEntry_keeps (fun _ path single => single.dropEntry path) g name parent

theorem removeDirectory_single (g : Gate γ) (name parent : String) :
    Keeps (ρ := ρ) Single (g.removeDirectory name parent) :=
  removeDirectory_keeps (fun _ path single => single.dropEntry path)
    (fun _ path single => single.dropDirectory path) g name parent

end Gate

namespace TreeCall

open EntryTree Gate

/-- One call, under any name, leaves every path standing once. -/
theorem perform_single {st : List String × EntryTree ρ} (single : st.2.Single) (c : TreeCall ρ) :
    (perform st c).2.Single := by
  cases c with
  | createDirectory name parent => exact createDirectory_single pass name parent st single
  | createEntry name directory content =>
    exact createEntry_single pass name directory content st single
  | removeEntry name directory => exact removeEntry_single pass name directory st single
  | removeDirectory name parent => exact removeDirectory_single pass name parent st single

theorem foldl_single {st : List String × EntryTree ρ} (single : st.2.Single)
    (calls : List (TreeCall ρ)) : (calls.foldl perform st).2.Single := by
  induction calls generalizing st with
  | nil => exact single
  | cons c rest ih => exact ih (perform_single single c)

theorem run_single (root : String) (calls : List (TreeCall ρ)) : (run root calls).2.Single := by
  have hnew : (([], .new root) : List String × EntryTree ρ).2.Single := Single.new root
  exact foldl_single hnew calls

/-- After any calls, under any names and to any directories, a path lists the names that are single
components and stand below it, each once and as what it is, in the strict order by units. The list
depends on what stands below the path, not on how it came to stand there. -/
theorem run_list (root : String) (calls : List (TreeCall ρ)) (path : String) :
    let t := (run root calls).2
    (∀ name, name ∈ (t.list path).map (·.name) ↔
      (name ≠ "" ∧ '/' ∉ name.toList) ∧ t.exists? (join path name) = true) ∧
    ((t.list path).map (·.name)).Nodup ∧
    (∀ c ∈ t.list path, (c.kind = .directory ↔ t.isDirectory (join path c.name) = true) ∧
      (c.kind = .file ↔ (t.content? (join path c.name)).isSome = true)) ∧
    ((t.list path).map fun c => Text.ofString c.name).Pairwise (· < ·) ∧
    ∀ otherRoot otherCalls, let u := (run otherRoot otherCalls : _ × EntryTree ρ).2
      (∀ name, t.isDirectory (join path name) = u.isDirectory (join path name) ∧
        (t.content? (join path name)).isSome = (u.content? (join path name)).isSome) →
      t.list path = u.list path := by
  intro t
  have single : t.Single := run_single root calls
  refine ⟨fun _ => mem_names_iff, single.nodup_names path, fun _ => single.kind_of_mem_list,
    List.pairwise_map.mpr (single.pairwise_before path), ?_⟩
  intro otherRoot otherCalls u same
  refine single.list_eq (run_single otherRoot otherCalls) fun name kind => ?_
  obtain ⟨hdirectory, hentry⟩ := same name
  cases kind with
  | directory => rw [← isDirectory_iff_mem_paths, ← isDirectory_iff_mem_paths, hdirectory]
  | file => rw [← isSome_content?_iff_mem_paths, ← isSome_content?_iff_mem_paths, hentry]

/-- A name with a separator is not listed, and a high half is before "ﬁ". -/
example :
    let calls : List (TreeCall Unit) :=
      [.createEntry "ﬁ" "/" (), .createEntry "a/b" "/" (), .createDirectory "😀" "/"]
    (run "/" calls).2.list "/" = [⟨"😀", .directory⟩, ⟨"ﬁ", .file⟩] := by cbv

end TreeCall

end DeviceReports
