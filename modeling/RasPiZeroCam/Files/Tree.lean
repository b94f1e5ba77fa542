import Mathlib.Data.List.AList
import Mathlib.Tactic

/-!
File-system trees: directories, files and symbolic links, by their locations.

* `FileTree`: the entries below the root, with the invariant that what is in a directory has a
  directory around it and a name of its own.
* `FileTree.lookup`, `FileTree.names`: what is at a location, and the names in a directory.
* `FileTree.unlink`: the tree without an entry that has nothing below it.  `lookup_unlink_of_ne` and
  `names_unlink`: nothing else changes.
-/

namespace Files

/-- A name, or a path, as the system calls take it. -/
abbrev Name := List UInt8

/-- The names on the way from the root. -/
abbrev Location := List Name

/-- A name that an entry of a directory may have: not empty, without `/` and NUL, not `.` or `..`,
and of 255 bytes at most. -/
def Proper (n : Name) : Prop :=
  n ≠ [] ∧ 47 ∉ n ∧ 0 ∉ n ∧ n ≠ [46] ∧ n ≠ [46, 46] ∧ n.length ≤ 255

instance (n : Name) : Decidable (Proper n) := by
  unfold Proper
  infer_instance

/-- What a name stands for. -/
inductive Entry (φ : Type*)
  | dir
  | file (content : φ)
  | link (target : List UInt8)
  deriving DecidableEq

/-- A file-system tree, with the files' contents in `φ`. -/
structure FileTree (φ : Type*) where
  entries : AList fun _ : Location => Entry φ
  proper : ∀ l ∈ entries.keys, l ≠ [] ∧ ∀ n ∈ l, Proper n
  inside : ∀ l ∈ entries.keys, l.dropLast = [] ∨ entries.lookup l.dropLast = some .dir

namespace FileTree

variable {φ : Type*} {t : FileTree φ} {l : Location} {n : Name}

/-- What is at a location. -/
def lookup (t : FileTree φ) (l : Location) : Option (Entry φ) :=
  if l = [] then some .dir else t.entries.lookup l

/-- There is a directory at a location. -/
def IsDir (t : FileTree φ) (l : Location) : Prop := t.lookup l = some .dir

instance (t : FileTree φ) (l : Location) : Decidable (t.IsDir l) :=
  match h : t.lookup l with
  | some .dir => isTrue h
  | some (.file _) => isFalse fun h' => by rw [IsDir, h] at h'; cases h'
  | some (.link _) => isFalse fun h' => by rw [IsDir, h] at h'; cases h'
  | none => isFalse fun h' => by rw [IsDir, h] at h'; cases h'

/-- The names in a directory. -/
def names (t : FileTree φ) (l : Location) : List Name :=
  t.entries.keys.filterMap fun k => if k.dropLast = l then k.getLast? else none

lemma isDir_root (t : FileTree φ) : t.IsDir [] := if_pos rfl

lemma lookup_of_ne_nil (h : l ≠ []) : t.lookup l = t.entries.lookup l := if_neg h

lemma lookup_child (t : FileTree φ) (l : Location) (n : Name) :
    t.lookup (l ++ [n]) = t.entries.lookup (l ++ [n]) :=
  lookup_of_ne_nil (by simp)

/-- A location is one of a name in a directory. -/
lemma dropLast_getLast_iff {k : Location} :
    k.dropLast = l ∧ k.getLast? = some n ↔ k = l ++ [n] := by
  constructor
  · rintro ⟨rfl, hlast⟩
    exact (List.dropLast_append_getLast? n hlast).symm
  · rintro rfl
    exact ⟨List.dropLast_concat, List.getLast?_concat⟩

lemma mem_names : n ∈ t.names l ↔ l ++ [n] ∈ t.entries.keys := by
  simp only [names, List.mem_filterMap]
  constructor
  · rintro ⟨k, hk, h⟩
    split_ifs at h with hdrop
    obtain rfl := dropLast_getLast_iff.mp ⟨hdrop, h⟩
    exact hk
  · intro h
    refine ⟨l ++ [n], h, ?_⟩
    rw [if_pos List.dropLast_concat, List.getLast?_concat]

lemma mem_names_iff_lookup : n ∈ t.names l ↔ ∃ e, t.lookup (l ++ [n]) = some e := by
  rw [mem_names, lookup_child, ← AList.mem_keys, ← AList.lookup_isSome, Option.isSome_iff_exists]

lemma not_mem_names_iff_lookup : n ∉ t.names l ↔ t.lookup (l ++ [n]) = none := by
  rw [mem_names_iff_lookup, ← Option.isSome_iff_exists, Option.not_isSome_iff_eq_none]

lemma proper_of_mem_names (h : n ∈ t.names l) : Proper n :=
  (t.proper _ (mem_names.mp h)).2 n (by simp)

/-- What has a name below it is a directory. -/
lemma isDir_of_mem_names (h : n ∈ t.names l) : t.IsDir l := by
  have hinside := t.inside _ (mem_names.mp h)
  rw [List.dropLast_concat] at hinside
  by_cases hl : l = []
  · exact if_pos hl
  · rw [IsDir, lookup_of_ne_nil hl]
    exact hinside.resolve_left hl

/-- A directory is in a directory. -/
lemma IsDir.dropLast (h : t.IsDir l) : t.IsDir l.dropLast := by
  by_cases hl : l = []
  · rw [hl]
    exact t.isDir_root
  · have hmem : l.dropLast ++ [l.getLast hl] ∈ t.entries.keys := by
      rw [List.dropLast_append_getLast, ← AList.mem_keys, ← AList.lookup_isSome,
        ← lookup_of_ne_nil hl, h]
      rfl
    exact isDir_of_mem_names (mem_names.mpr hmem)

/-- Nothing is below a file or a link. -/
lemma names_eq_nil_of_not_isDir (h : ¬ t.IsDir l) : t.names l = [] :=
  List.eq_nil_iff_forall_not_mem.mpr fun _ hn => h (isDir_of_mem_names hn)

lemma names_nodup (t : FileTree φ) (l : Location) : (t.names l).Nodup := by
  refine List.Nodup.filterMap ?_ t.entries.keys_nodup
  intro k k' n hk hk'
  simp only [Option.mem_def] at hk hk'
  split_ifs at hk with hdrop
  split_ifs at hk' with hdrop'
  exact (dropLast_getLast_iff.mp ⟨hdrop, hk⟩).trans (dropLast_getLast_iff.mp ⟨hdrop', hk'⟩).symm

/-! ### Removing an entry -/

/-- The tree without the entry at a location that has nothing below it. -/
def unlink (t : FileTree φ) (l : Location) (h : t.names l = []) : FileTree φ where
  entries := t.entries.erase l
  proper k hk := t.proper k (AList.mem_erase.mp (AList.mem_keys.mpr hk)).2
  inside k hk := by
    obtain ⟨-, hmem⟩ := AList.mem_erase.mp (AList.mem_keys.mpr hk)
    refine (t.inside k hmem).imp_right fun hdir => ?_
    have hne : k.dropLast ≠ l := by
      rintro rfl
      have hlast := List.getLast?_eq_getLast_of_ne_nil (t.proper k hmem).1
      have hk : k = k.dropLast ++ [k.getLast (t.proper k hmem).1] :=
        (List.dropLast_append_getLast _).symm
      have hbelow : k.getLast (t.proper k hmem).1 ∈ t.names k.dropLast :=
        mem_names.mpr (hk ▸ hmem)
      rw [h] at hbelow
      cases hbelow
    rw [AList.lookup_erase_ne hne]
    exact hdir

variable {h : t.names l = []}

lemma lookup_unlink (hl : l ≠ []) : (t.unlink l h).lookup l = none := by
  rw [lookup_of_ne_nil hl]
  exact AList.lookup_erase l t.entries

/-- Every other entry stays. -/
lemma lookup_unlink_of_ne {k : Location} (hk : k ≠ l) :
    (t.unlink l h).lookup k = t.lookup k := by
  rw [lookup, lookup]
  congr 1
  exact AList.lookup_erase_ne hk

/-- Its directory loses its name, and no other. -/
lemma names_unlink {h : t.names (l ++ [n]) = []} :
    (t.unlink (l ++ [n]) h).names l = (t.names l).erase n := by
  have hkeys : (t.unlink (l ++ [n]) h).entries.keys =
      t.entries.keys.filter (· ≠ l ++ [n]) := by
    rw [unlink, AList.keys_erase]
    refine (@List.Nodup.erase_eq_filter _ instBEqOfDecidableEq _ _ t.entries.keys_nodup _).trans ?_
    refine List.filter_congr fun k _ => ?_
    rw [Bool.eq_iff_iff]
    simp
  rw [(t.names_nodup l).erase_eq_filter, names, names, hkeys, List.filterMap_filter,
    List.filter_filterMap]
  refine List.filterMap_congr fun k _ => ?_
  by_cases hdrop : k.dropLast = l
  · rw [if_pos hdrop]
    cases hlast : k.getLast? with
    | none => simp
    | some m =>
        obtain rfl := dropLast_getLast_iff.mp ⟨hdrop, hlast⟩
        by_cases hm : m = n <;> simp [hm, Option.filter]
  · simp [hdrop]

end FileTree

end Files
