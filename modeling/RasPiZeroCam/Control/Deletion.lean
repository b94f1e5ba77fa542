import RasPiZeroCam.Control.Recordings
import RasPiZeroCam.Files.Calls

/-!
`delete_recording_file` on a file-system tree.

* `Deletion.deleteRecordingFile`: the function, on any tree, from any working directory.
* `RemovedChild`: one entry is gone, that of a name in a directory; it was a file, or a link to
  one, and nothing else has changed.
* `delete_confined`: when the function returns true it has removed the child it was asked for, and
  otherwise it has changed nothing.
* `deleteRecordingFile_refines`: on a directory without links it agrees with its model on the list
  of the files' paths, of `Control.Recordings`.
-/

namespace RasPiZeroCam

open Files

variable {φ : Type*}

namespace Deletion

/-- `delete_recording_file(dir, name)`: its result, or the error with which `std::filesystem`
throws, and the tree after it. -/
def deleteRecordingFile (cwd : Location) (dir name : Bytes) (t : FileTree φ) :
    Except Errno Bool × FileTree φ :=
  if refusedName name then (.ok false, t)
  else
    let p := cStr (join dir name)
    match pathExists t cwd p with
    | .error e => (.error e, t)
    | .ok false => (.ok false, t)
    | .ok true =>
        match isRegularFile t cwd p with
        | .error e => (.error e, t)
        | .ok false => (.ok false, t)
        | .ok true => remove t cwd p

/-- From `t` to `t'` the entry `name` of the directory `d` has been removed: a file, or a link that
leads to one. -/
structure RemovedChild (t t' : FileTree φ) (cwd : Location) (dir : Bytes) (d : Location)
    (name : Bytes) : Prop where
  kind : (∃ content, t.lookup (d ++ [name]) = some (.file content)) ∨
    ∃ target l content, t.lookup (d ++ [name]) = some (.link target) ∧
      resolve t true cwd (join dir name) = .ok l ∧ t.lookup l = some (.file content)
  gone : t'.lookup (d ++ [name]) = none
  rest : ∀ l, l ≠ d ++ [name] → t'.lookup l = t.lookup l

section

variable {t : FileTree φ} {cwd d : Location} {dir name : Bytes}

/-- With a NUL in the directory's path, the call does not see the name. -/
lemma cStr_join_of_mem (hslash : 47 ∉ name) (hdir : 0 ∈ dir) :
    cStr (join dir name) = cStr dir := by
  have hne : dir ≠ [] := List.ne_nil_of_mem hdir
  rw [join_eq hne hslash]
  split_ifs <;> exact cStr_append_of_mem hdir

lemma cStr_join (hname : 0 ∉ name) (hdir : 0 ∉ dir) : cStr (join dir name) = join dir name := by
  rw [cStr_eq_self_iff, join]
  split_ifs <;> simp [hname, hdir]

/-- The names that pass the check. -/
lemma accepted_of_not_refused (h : refusedName name = false) :
    47 ∉ name ∧ name ≠ [46, 46] := by
  obtain ⟨-, hslash, hdots⟩ := refusedName_eq_false_iff.mp h
  refine ⟨hslash, ?_⟩
  rintro rfl
  exact hdots List.infix_rfl

/-- A name that passes the check, of a regular file in the directory: the entry is unlinked. -/
lemma deleteRecordingFile_of_regular (hdir : resolve t true cwd (cStr dir) = .ok d)
    (hd : t.IsDir d) (hname : 0 ∉ name) (hcheck : refusedName name = false)
    (h : isRegularFile t cwd (cStr (join dir name)) = .ok true) :
    ∃ e hnames, t.lookup (d ++ [name]) = some e ∧ e ≠ .dir ∧
      d ++ [name] ∉ passes t cwd dir ∧ cStr (join dir name) = join dir name ∧
        deleteRecordingFile cwd dir name t = (.ok true, t.unlink (d ++ [name]) hnames) := by
  obtain ⟨hslash, hup⟩ := accepted_of_not_refused hcheck
  have hnul : 0 ∉ dir := by
    intro hmem
    rw [cStr_join_of_mem hslash hmem] at h
    obtain ⟨l, content, hl, hfile⟩ := isRegularFile_iff.mp h
    cases hdir.symm.trans hl
    exact not_isDir_of_lookup hfile nofun hd
  have hpath := cStr_join hname hnul
  rw [cStr_eq_self_iff.mpr hnul] at hdir
  rw [hpath] at h
  obtain ⟨-, hitself, hpasses, e, he, hentry⟩ := regular_child hdir hd hslash hup h
  have hremove := remove_entry hitself (by simp) he hentry
  refine ⟨e, FileTree.names_eq_nil_of_not_isDir (not_isDir_of_lookup he hentry), he, hentry,
    hpasses, hpath, ?_⟩
  rw [deleteRecordingFile, hcheck, hpath]
  simp only [Bool.false_eq_true, if_false, pathExists_of_isRegularFile h, h]
  exact hremove

/-- Without a regular file of that name nothing happens. -/
lemma deleteRecordingFile_of_not_regular
    (h : refusedName name = true ∨ isRegularFile t cwd (cStr (join dir name)) ≠ .ok true) :
    (deleteRecordingFile cwd dir name t).1 ≠ .ok true ∧
      (deleteRecordingFile cwd dir name t).2 = t := by
  rw [deleteRecordingFile]
  split_ifs with hcheck
  · exact ⟨nofun, rfl⟩
  · replace h := h.resolve_left hcheck
    dsimp only
    split
    · exact ⟨nofun, rfl⟩
    · exact ⟨nofun, rfl⟩
    · split
      · exact ⟨nofun, rfl⟩
      · exact ⟨nofun, rfl⟩
      next hregular => exact absurd hregular h

end

/-- **`delete_recording_file` removes the recording it was asked for, or nothing**: whatever the
tree, the directory and the name. -/
theorem delete_confined {t : FileTree φ} {cwd d : Location} {dir name : Bytes}
    (hdir : resolve t true cwd (cStr dir) = .ok d) (hd : t.IsDir d) (hname : 0 ∉ name) :
    ((deleteRecordingFile cwd dir name t).1 = .ok true →
        RemovedChild t (deleteRecordingFile cwd dir name t).2 cwd dir d name) ∧
      ((deleteRecordingFile cwd dir name t).1 ≠ .ok true →
        (deleteRecordingFile cwd dir name t).2 = t) := by
  by_cases h : refusedName name = true ∨ isRegularFile t cwd (cStr (join dir name)) ≠ .ok true
  · obtain ⟨hfalse, hsame⟩ := deleteRecordingFile_of_not_regular h
    exact ⟨fun htrue => absurd htrue hfalse, fun _ => hsame⟩
  · obtain ⟨hcheck, hregular⟩ := not_or.mp h
    rw [Bool.not_eq_true] at hcheck
    rw [not_not] at hregular
    obtain ⟨e, hnames, he, hentry, -, hpath, hdelete⟩ :=
      deleteRecordingFile_of_regular hdir hd hname hcheck hregular
    rw [hdelete]
    refine ⟨fun _ => ⟨?_, FileTree.lookup_unlink (h := hnames) (by simp), fun l hl =>
      FileTree.lookup_unlink_of_ne (h := hnames) hl⟩, fun hfalse => absurd rfl hfalse⟩
    obtain ⟨l, content, hl, hfile⟩ := isRegularFile_iff.mp (hpath ▸ hregular)
    cases e with
    | dir => exact absurd rfl hentry
    | file content => exact Or.inl ⟨content, he⟩
    | link target => exact Or.inr ⟨target, l, content, he, hl, hfile⟩

/-- A recordings directory with a recording and a link to it, beside another file. -/
def sample : FileTree ℕ where
  entries :=
    ⟨[⟨[recDir], .dir⟩, ⟨[recDir, ascii "a.mp4"], .file 1⟩,
      ⟨[recDir, ascii "b.mp4"], .link (ascii "a.mp4")⟩, ⟨[ascii "a.mp4"], .file 2⟩],
      List.nodupKeys_iff_pairwise.mpr (by decide)⟩
  proper := by decide
  inside := by decide

/-- A link in the recordings directory is removed, and what it leads to stays. -/
theorem delete_confined_link :
    (deleteRecordingFile [] recDir (ascii "b.mp4") sample).1 = .ok true ∧
      RemovedChild sample (deleteRecordingFile [] recDir (ascii "b.mp4") sample).2 [] recDir
        [recDir] (ascii "b.mp4") := by
  have htrue : (deleteRecordingFile [] recDir (ascii "b.mp4") sample).1 = .ok true := by decide
  exact ⟨htrue, (delete_confined (by decide) (by decide) (by decide)).1 htrue⟩

/-! ### The directory as a list of paths -/

/-- `files` are the paths of the files in the directory `d`, which has no links. -/
structure Flat (t : FileTree φ) (dir : Bytes) (d : Location) (files : List Bytes) : Prop where
  nodup : files.Nodup
  mem_iff : ∀ name, refusedName name = false → 0 ∉ name →
    (inDir dir name ∈ files ↔ ∃ content, t.lookup (d ++ [name]) = some (.file content))
  noLink : ∀ name target, t.lookup (d ++ [name]) ≠ some (.link target)

section

variable {t : FileTree φ} {cwd d : Location} {dir name : Bytes} {files : List Bytes}

/-- Without links, the regular files of a directory are its entries that are files. -/
lemma isRegularFile_join_iff (hdir : resolve t true cwd dir = .ok d) (hd : t.IsDir d)
    (hlinks : ∀ name target, t.lookup (d ++ [name]) ≠ some (.link target)) (hslash : 47 ∉ name)
    (hup : name ≠ [46, 46]) (hshort : (join dir name).length < 4096) :
    isRegularFile t cwd (join dir name) = .ok true ↔
      ∃ content, t.lookup (d ++ [name]) = some (.file content) := by
  constructor
  · intro h
    obtain ⟨-, -, -, e, he, hentry⟩ := regular_child hdir hd hslash hup h
    cases e with
    | dir => exact absurd rfl hentry
    | file content => exact ⟨content, he⟩
    | link target => exact absurd he (hlinks name target)
  · rintro ⟨content, hfile⟩
    have hproper : Proper name :=
      FileTree.proper_of_mem_names (FileTree.mem_names_iff_lookup.mpr ⟨_, hfile⟩)
    exact isRegularFile_iff.mpr
      ⟨_, content, resolve_file hdir hd hproper hfile hshort, hfile⟩

/-- Unlinking an entry takes its path off the list. -/
lemma Flat.unlink (h : Flat t dir d files) (hnames : t.names (d ++ [name]) = []) :
    Flat (t.unlink (d ++ [name]) hnames) dir d (files.erase (inDir dir name)) := by
  have hgone : (t.unlink (d ++ [name]) hnames).lookup (d ++ [name]) = none :=
    FileTree.lookup_unlink (by simp)
  have hrest (other : Bytes) (hne : other ≠ name) :
      (t.unlink (d ++ [name]) hnames).lookup (d ++ [other]) = t.lookup (d ++ [other]) :=
    FileTree.lookup_unlink_of_ne (by simp [hne])
  refine ⟨h.nodup.erase _, fun other hother hzero => ?_, fun other target => ?_⟩
  · rw [h.nodup.mem_erase_iff]
    by_cases hsame : other = name
    · rw [hsame, hgone]
      simp
    · have hpaths : inDir dir other ≠ inDir dir name :=
        fun heq => hsame (List.append_cancel_left heq)
      rw [hrest other hsame, h.mem_iff other hother hzero, and_iff_right hpaths]
  · by_cases hsame : other = name
    · rw [hsame, hgone]
      exact (Option.some_ne_none _).symm
    · rw [hrest other hsame]
      exact h.noLink other target

/-- **On a directory without links the function does to the tree what its model on a list of paths
does to the list.** -/
theorem deleteRecordingFile_refines (hdir : resolve t true cwd dir = .ok d) (hd : t.IsDir d)
    (hnul : 0 ∉ dir) (hname : 0 ∉ name) (hshort : (join dir name).length < 4096)
    (h : Flat t dir d files) :
    ((deleteRecordingFile cwd dir name t).1 = .ok true ↔
        (RasPiZeroCam.deleteRecordingFile dir name files).1 = true) ∧
      Flat (deleteRecordingFile cwd dir name t).2 dir d
        (RasPiZeroCam.deleteRecordingFile dir name files).2 := by
  have hpath := cStr_join hname hnul
  rw [RasPiZeroCam.deleteRecordingFile]
  split_ifs with hcheck hmem
  case pos =>
    obtain ⟨hfalse, hsame⟩ : (deleteRecordingFile cwd dir name t).1 ≠ .ok true ∧
        (deleteRecordingFile cwd dir name t).2 = t :=
      deleteRecordingFile_of_not_regular (Or.inl hcheck)
    exact ⟨iff_of_false hfalse not_false, hsame.symm ▸ h⟩
  all_goals
    rw [Bool.not_eq_true] at hcheck
    obtain ⟨hslash, hup⟩ := accepted_of_not_refused hcheck
    have hregular : isRegularFile t cwd (cStr (join dir name)) = .ok true ↔
        inDir dir name ∈ files := by
      rw [hpath, h.mem_iff name hcheck hname]
      exact isRegularFile_join_iff hdir hd h.noLink hslash hup hshort
  case pos =>
    obtain ⟨e, hnames, -, -, -, -, hdelete⟩ := deleteRecordingFile_of_regular
      ((cStr_eq_self_iff.mpr hnul).symm ▸ hdir) hd hname hcheck (hregular.mpr hmem)
    rw [hdelete]
    exact ⟨iff_of_true rfl rfl, h.unlink hnames⟩
  case neg =>
    obtain ⟨hfalse, hsame⟩ : (deleteRecordingFile cwd dir name t).1 ≠ .ok true ∧
        (deleteRecordingFile cwd dir name t).2 = t :=
      deleteRecordingFile_of_not_regular (Or.inr fun hok => hmem (hregular.mp hok))
    exact ⟨iff_of_false hfalse not_false, hsame.symm ▸ h⟩

end

end Deletion

end RasPiZeroCam
