import RasPiZeroCam.Files.Resolve

/-!
The calls of `std::filesystem` on a tree.

* `status`, `pathExists`, `isRegularFile`, `fileContent`: what a path names, symbolic links
  followed.
* `remove`: the entry that a path names is unlinked, be it a link.
* `regular_child`: in a directory, the path of a regular file is that of a file or a link, and
  `remove` unlinks this entry of the directory.
* `status_unlink`, `isRegularFile_unlink_of_passed`: what the calls say of the other paths then.
-/

namespace Files

variable {φ : Type*}

/-- `std::filesystem::file_type`, after links have been followed. -/
inductive FileType where
  | notFound
  | regular
  | directory
  deriving DecidableEq

/-- `status(p)`. -/
def status (t : FileTree φ) (cwd : Location) (path : Name) : Except Errno FileType :=
  match resolve t true cwd path with
  | .ok l =>
      match t.lookup l with
      | some .dir => .ok .directory
      | some (.file _) => .ok .regular
      | _ => .ok .notFound
  | .error .noEntry => .ok .notFound
  | .error .notDirectory => .ok .notFound
  | .error e => .error e

/-- `exists(p)`. -/
def pathExists (t : FileTree φ) (cwd : Location) (path : Name) : Except Errno Bool :=
  (status t cwd path).map (· != .notFound)

/-- `is_regular_file(p)`. -/
def isRegularFile (t : FileTree φ) (cwd : Location) (path : Name) : Except Errno Bool :=
  (status t cwd path).map (· == .regular)

/-- The file that a path names, for `file_size(p)` and `last_write_time(p)`. -/
def fileContent (t : FileTree φ) (cwd : Location) (path : Name) : Except Errno φ :=
  match resolve t true cwd path with
  | .ok l =>
      match t.lookup l with
      | some (.file content) => .ok content
      | some .dir => .error .isDirectory
      | _ => .error .noEntry
  | .error e => .error e

/-- `remove(p)`: nothing to remove is no error. -/
def remove (t : FileTree φ) (cwd : Location) (path : Name) : Except Errno Bool × FileTree φ :=
  match resolve t false cwd path with
  | .ok l =>
      if l = [] then (.error .busy, t)
      else if t.IsDir l ∧ (components path).getLast? = some [46] then (.error .invalid, t)
      else if h : t.names l = [] then (.ok true, t.unlink l h)
      else (.error .notEmpty, t)
  | .error .noEntry => (.ok false, t)
  | .error e => (.error e, t)

section

variable {t : FileTree φ} {cwd d l : Location} {dir n path : Name}

lemma isRegularFile_iff : isRegularFile t cwd path = .ok true ↔
    ∃ l content, resolve t true cwd path = .ok l ∧ t.lookup l = some (.file content) := by
  rw [isRegularFile, status]
  cases hl : resolve t true cwd path with
  | error e => cases e <;> simp [Except.map]
  | ok l =>
      cases hfound : t.lookup l with
      | none => simp [Except.map, hfound]
      | some e => cases e <;> simp [Except.map, hfound]

/-- What is a regular file exists. -/
lemma pathExists_of_isRegularFile (h : isRegularFile t cwd path = .ok true) :
    pathExists t cwd path = .ok true := by
  obtain ⟨l, content, hl, hfile⟩ := isRegularFile_iff.mp h
  simp [pathExists, status, hl, hfile, Except.map]

lemma fileContent_eq_ok_iff {content : φ} : fileContent t cwd path = .ok content ↔
    ∃ l, resolve t true cwd path = .ok l ∧ t.lookup l = some (.file content) := by
  rw [fileContent]
  cases hl : resolve t true cwd path with
  | error e => simp
  | ok l =>
      cases hfound : t.lookup l with
      | none => simp [hfound]
      | some e => cases e <;> simp [hfound]

lemma not_isDir_of_lookup {e : Entry φ} (h : t.lookup l = some e) (he : e ≠ .dir) :
    ¬ t.IsDir l := fun hdir => he (Option.some.inj (h.symm.trans hdir))

lemma remove_entry {e : Entry φ} (hpath : resolve t false cwd path = .ok l) (hroot : l ≠ [])
    (he : t.lookup l = some e) (hdir : e ≠ .dir) :
    remove t cwd path = (.ok true,
      t.unlink l (FileTree.names_eq_nil_of_not_isDir (not_isDir_of_lookup he hdir))) := by
  have hnot := not_isDir_of_lookup he hdir
  rw [remove, hpath]
  dsimp only
  rw [if_neg hroot, if_neg (fun h => hnot h.1), dif_pos]

/-- **The path of a regular file in a directory** is that of a file or a link in it, and the way to
the directory does not pass it. -/
theorem regular_child (hdir : resolve t true cwd dir = .ok d) (hd : t.IsDir d) (hslash : 47 ∉ n)
    (hup : n ≠ [46, 46]) (h : isRegularFile t cwd (join dir n) = .ok true) :
    Plain n ∧ resolve t false cwd (join dir n) = .ok (d ++ [n]) ∧ d ++ [n] ∉ passes t cwd dir ∧
      ∃ e, t.lookup (d ++ [n]) = some e ∧ e ≠ .dir := by
  obtain ⟨hne, -, left, hwalk⟩ := resolve_eq_ok_iff.mp hdir
  obtain ⟨l, content, hl, hfile⟩ := isRegularFile_iff.mp h
  obtain ⟨hnil, hlong, left', hchild⟩ := resolve_eq_ok_iff.mp hl
  have hnotDir : ¬ t.IsDir l := not_isDir_of_lookup hfile nofun
  rw [walk_join hslash hne hwalk hd] at hchild
  obtain ⟨hplain, e, he, hentry, -⟩ := walk_name hd hup hchild hnotDir
  refine ⟨hplain, resolve_eq_ok_iff.mpr ⟨hnil, hlong, left, ?_⟩,
    not_passed_of_file hwalk hd hchild hnotDir, e, he, hentry⟩
  rw [walk_join hslash hne hwalk hd]
  exact walk_name_itself hd hplain he

/-- A file in a directory is resolved to itself. -/
lemma resolve_file (hdir : resolve t true cwd dir = .ok d) (hd : t.IsDir d) (hn : Proper n)
    {content : φ} (hfile : t.lookup (d ++ [n]) = some (.file content))
    (hshort : (join dir n).length < 4096) :
    resolve t true cwd (join dir n) = .ok (d ++ [n]) := by
  obtain ⟨hne, -, left, hwalk⟩ := resolve_eq_ok_iff.mp hdir
  have hslash : 47 ∉ n := hn.2.1
  have hstep : (scan t true d [n]).2 = .arrived (d ++ [n]) := by
    rw [scan_plain hd hn.plain, hfile]
    rfl
  have hnil : join dir n ≠ [] := by
    rw [join_eq hne hslash]
    split_ifs <;> simp [hne]
  refine resolve_eq_ok_iff.mpr ⟨hnil, hshort, left, ?_⟩
  rw [walk_join hslash hne hwalk hd]
  cases left <;> rw [walk, hstep]

end

section

variable {t : FileTree φ} {cwd k l : Location} {path : Name} {h : t.names l = []}

/-- A path that does not pass a file or a link is resolved as before without it. -/
lemma resolve_unlink (hroot : l ≠ []) (hdir : ¬ t.IsDir l) (hl : l ∉ passes t cwd path) :
    resolve (t.unlink l h) true cwd path = resolve t true cwd path := by
  rw [resolve, resolve, walk_unlink hroot hdir hl]

lemma ne_of_resolve (hdir : ¬ t.IsDir l) (hl : l ∉ passes t cwd path)
    (hk : resolve t true cwd path = .ok k) : k ≠ l := by
  rintro rfl
  obtain ⟨-, -, left, hwalk⟩ := resolve_eq_ok_iff.mp hk
  exact hl (mem_trail_of_walk (List.splitOn_ne_nil 47 path) hwalk hdir)

/-- It names what it named. -/
lemma status_unlink (hroot : l ≠ []) (hdir : ¬ t.IsDir l) (hl : l ∉ passes t cwd path) :
    status (t.unlink l h) cwd path = status t cwd path := by
  have hresolve := resolve_unlink (h := h) hroot hdir hl
  cases hpath : resolve t true cwd path with
  | error e =>
      rw [hpath] at hresolve
      cases e <;> simp only [status, hresolve, hpath]
  | ok k =>
      rw [hpath] at hresolve
      have hne := ne_of_resolve hdir hl hpath
      simp only [status, hresolve, hpath, FileTree.lookup_unlink_of_ne hne]

lemma fileContent_unlink (hroot : l ≠ []) (hdir : ¬ t.IsDir l) (hl : l ∉ passes t cwd path) :
    fileContent (t.unlink l h) cwd path = fileContent t cwd path := by
  have hresolve := resolve_unlink (h := h) hroot hdir hl
  cases hpath : resolve t true cwd path with
  | error e =>
      rw [hpath] at hresolve
      simp only [fileContent, hresolve, hpath]
  | ok k =>
      rw [hpath] at hresolve
      simp only [fileContent, hresolve, hpath,
        FileTree.lookup_unlink_of_ne (ne_of_resolve hdir hl hpath)]

/-- A path that passes it is that of no regular file any more. -/
lemma isRegularFile_unlink_of_passed (hroot : l ≠ []) (hdir : ¬ t.IsDir l)
    (hl : l ∈ passes t cwd path) {b : Bool} (hb : isRegularFile t cwd path = .ok b) :
    isRegularFile (t.unlink l h) cwd path = .ok false := by
  have hgone : resolve (t.unlink l h) true cwd path = .error .noEntry := by
    rw [resolve]
    split_ifs with hnil hlong
    · rfl
    · rw [isRegularFile, status, resolve, if_neg hnil, if_pos hlong] at hb
      cases hb
    · rw [walk_unlink_of_passed hroot hdir hl]
      rfl
  rw [isRegularFile, status, hgone]
  rfl

end

end Files
