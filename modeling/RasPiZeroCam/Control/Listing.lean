import RasPiZeroCam.Control.Deletion

/-!
`list_recordings_json` on a file-system tree, and what `delete_recording` does to a name it
returned.

* `extension`, `visit`, `listRecordings`: the listing, entry by entry.
* `leadsThrough`: another entry of the directory is a symbolic link whose resolution passes the one
  to delete.
* `listed_deletable`: a listed name without `..` is deleted, and the next listing has the other
  entries, except the links that led through the one deleted.
* `listed_not_deletable`: a listed name with `..` is refused, and a link is lost with the file it
  leads to.
-/

namespace RasPiZeroCam

open Files

/-! ### The listing -/

/-- What the listing reads of a file: its size, and when it was last written, in nanoseconds. -/
structure FileStat where
  size : ℕ
  mtime : ℤ
  deriving DecidableEq

/-- `path::extension()` of a file name: from its last dot on, unless it begins with it. -/
def extension (name : Bytes) : Bytes :=
  if name = [46] ∨ name = [46, 46] then []
  else
    match name.reverse.idxOf? 46 with
    | none => []
    | some i => if i + 1 = name.length then [] else name.drop (name.length - 1 - i)

/-- An element of the array: `name`, and the file that `size_mb` and `modified` come from. -/
structure Listed where
  name : Bytes
  stat : FileStat
  deriving DecidableEq

/-- `modified`, where `clocks` is how far apart the two clocks are read when an entry is visited. -/
def Listed.modified (clocks : Bytes → ℤ) (f : Listed) : ℤ :=
  toTimeT (f.stat.mtime + clocks f.name)

/-- `e.is_regular_file()`: the iterator knows the type of an entry, but follows a link. -/
def entryIsRegular (t : FileTree FileStat) (cwd : Location) (dir : Bytes) (d : Location)
    (n : Bytes) : Except Errno Bool :=
  match t.lookup (d ++ [n]) with
  | some (.file _) => .ok true
  | some .dir => .ok false
  | _ => isRegularFile t cwd (cStr (join dir n))

/-- One pass of the loop, for the entry `n` of the directory `d`. -/
def visit (t : FileTree FileStat) (cwd : Location) (dir : Bytes) (d : Location) (n : Bytes) :
    Except Errno (Option Listed) :=
  match entryIsRegular t cwd dir d n with
  | .error e => .error e
  | .ok false => .ok none
  | .ok true =>
      if extension n ≠ ascii ".mp4" ∧ extension n ≠ ascii ".jpg" then .ok none
      else (fileContent t cwd (cStr (join dir n))).map fun stat => some ⟨n, stat⟩

/-- The loop over the entries. -/
def visitAll (visit : Bytes → Except Errno (Option Listed)) :
    List Bytes → Except Errno (List Listed)
  | [] => .ok []
  | n :: ns =>
      match visit n with
      | .error e => .error e
      | .ok none => visitAll visit ns
      | .ok (some f) => (visitAll visit ns).map (f :: ·)

/-- `list_recordings_json(dir)`, newest first. -/
def listRecordings (clocks : Bytes → ℤ) (cwd : Location) (dir : Bytes) (t : FileTree FileStat) :
    Except Errno (List Listed) :=
  match pathExists t cwd (cStr dir) with
  | .error e => .error e
  | .ok false => .ok []
  | .ok true =>
      match resolve t true cwd (cStr dir) with
      | .error e => .error e
      | .ok d =>
          if t.IsDir d then
            (visitAll (visit t cwd dir d) (t.names d)).map
              (List.insertionSort fun f g => g.modified clocks ≤ f.modified clocks)
          else .error .notDirectory

/-- The entry `m` of the directory `d` is a link whose resolution passes the entry `n`. -/
def leadsThrough (t : FileTree FileStat) (cwd : Location) (dir : Bytes) (d : Location)
    (n m : Bytes) : Bool :=
  match t.lookup (d ++ [m]) with
  | some (.link _) => decide (d ++ [n] ∈ passes t cwd (join dir m))
  | _ => false

/-- `name` is no listed name, or `delete_recording` deletes it and the next listing consists of
exactly the other entries. -/
def Deletable (t : FileTree FileStat) (cwd : Location) (dir name : Bytes) : Prop :=
  ∀ clocks clocks' listed, listRecordings clocks cwd dir t = .ok listed →
    name ∈ listed.map Listed.name →
      ∃ t' listed', Deletion.deleteRecordingFile cwd dir name t = (.ok true, t') ∧
        listRecordings clocks' cwd dir t' = .ok listed' ∧
          listed'.Perm (listed.filter fun f => f.name ≠ name)

/-! ### The loop -/

/-- What a pass of the loop adds. -/
def found (r : Except Errno (Option Listed)) : Option Listed := r.toOption.join

lemma visitAll_eq_ok_iff {visit : Bytes → Except Errno (Option Listed)} {ns : List Bytes}
    {fs : List Listed} : visitAll visit ns = .ok fs ↔
      (∀ n ∈ ns, ∃ r, visit n = .ok r) ∧ fs = ns.filterMap fun n => found (visit n) := by
  induction ns generalizing fs with
  | nil => simp [visitAll, eq_comm]
  | cons n ns ih =>
      rw [visitAll, List.forall_mem_cons, List.filterMap_cons]
      cases hn : visit n with
      | error e => simp
      | ok r =>
          cases r with
          | none => simp [ih, found, Except.toOption]
          | some f =>
              cases hns : visitAll visit ns with
              | error e =>
                  refine iff_of_false nofun ?_
                  rintro ⟨⟨-, hall⟩, -⟩
                  have hok := ih.mpr ⟨hall, rfl⟩
                  rw [hns] at hok
                  cases hok
              | ok gs =>
                  obtain ⟨hall, rfl⟩ := ih.mp hns
                  constructor
                  · rintro h
                    cases h
                    exact ⟨⟨⟨_, rfl⟩, hall⟩, rfl⟩
                  · rintro ⟨-, rfl⟩
                    rfl

/-- A pass adds the entry's own name, with what was read of the file behind it. -/
lemma eq_of_found {t : FileTree FileStat} {cwd d : Location} {dir n : Bytes} {f : Listed}
    (h : found (visit t cwd dir d n) = some f) :
    ∃ stat, fileContent t cwd (cStr (join dir n)) = .ok stat ∧ f = ⟨n, stat⟩ := by
  rw [visit] at h
  cases hregular : entryIsRegular t cwd dir d n with
  | error e =>
      rw [hregular] at h
      cases h
  | ok b =>
      rw [hregular] at h
      cases b with
      | false => cases h
      | true =>
          dsimp only at h
          split_ifs at h
          · cases h
          · cases hcontent : fileContent t cwd (cStr (join dir n)) with
            | error e =>
                rw [hcontent] at h
                cases h
            | ok stat =>
                rw [hcontent] at h
                cases h
                exact ⟨stat, rfl, rfl⟩

lemma found_name {t : FileTree FileStat} {cwd d : Location} {dir n : Bytes} {f : Listed}
    (h : found (visit t cwd dir d n) = some f) : f.name = n := by
  obtain ⟨stat, -, rfl⟩ := eq_of_found h
  rfl

/-- What is listed is a regular file. -/
lemma isRegularFile_of_found {t : FileTree FileStat} {cwd d : Location} {dir n : Bytes}
    {f : Listed} (h : found (visit t cwd dir d n) = some f) :
    isRegularFile t cwd (cStr (join dir n)) = .ok true := by
  obtain ⟨stat, hcontent, -⟩ := eq_of_found h
  obtain ⟨l, hl, hfile⟩ := fileContent_eq_ok_iff.mp hcontent
  exact isRegularFile_iff.mpr ⟨l, stat, hl, hfile⟩

/-- A listing that is returned is made of the passes of the loop over the directory. -/
lemma listRecordings_eq_ok {t : FileTree FileStat} {cwd : Location} {dir : Bytes}
    {clocks : Bytes → ℤ} {listed : List Listed} (h : listRecordings clocks cwd dir t = .ok listed)
    (hne : listed ≠ []) :
    ∃ d, resolve t true cwd (cStr dir) = .ok d ∧ t.IsDir d ∧
      (∀ n ∈ t.names d, ∃ r, visit t cwd dir d n = .ok r) ∧
        listed.Perm ((t.names d).filterMap fun n => found (visit t cwd dir d n)) := by
  rw [listRecordings] at h
  split at h
  · cases h
  · cases h
    exact absurd rfl hne
  · cases hd : resolve t true cwd (cStr dir) with
    | error e =>
        rw [hd] at h
        cases h
    | ok d =>
        rw [hd] at h
        dsimp only at h
        split_ifs at h with hisDir
        cases hall : visitAll (visit t cwd dir d) (t.names d) with
        | error e =>
            rw [hall] at h
            cases h
        | ok fs =>
            rw [hall] at h
            cases h
            obtain ⟨hvisit, rfl⟩ := visitAll_eq_ok_iff.mp hall
            exact ⟨d, rfl, hisDir, hvisit, List.perm_insertionSort _ _⟩

/-- The other way around. -/
lemma listRecordings_of_visit {t : FileTree FileStat} {cwd d : Location} {dir : Bytes}
    (clocks : Bytes → ℤ) (hd : resolve t true cwd (cStr dir) = .ok d) (hisDir : t.IsDir d)
    (hvisit : ∀ n ∈ t.names d, ∃ r, visit t cwd dir d n = .ok r) :
    ∃ listed, listRecordings clocks cwd dir t = .ok listed ∧
      listed.Perm ((t.names d).filterMap fun n => found (visit t cwd dir d n)) := by
  have hexists : pathExists t cwd (cStr dir) = .ok true := by
    have hlookup : t.lookup d = some .dir := hisDir
    simp [pathExists, status, hd, hlookup, Except.map]
  refine ⟨_, ?_, List.perm_insertionSort (fun f g => g.modified clocks ≤ f.modified clocks) _⟩
  rw [listRecordings, hexists, hd]
  dsimp only
  rw [if_pos hisDir, visitAll_eq_ok_iff.mpr ⟨hvisit, rfl⟩]
  rfl

/-! ### The next listing -/

section

variable {t : FileTree FileStat} {cwd d : Location} {dir name m : Bytes}
  {h : t.names (d ++ [name]) = []}

/-- A file is visited as before. -/
lemma visit_unlink_file (hnul : 0 ∉ dir) (hdir : resolve t true cwd dir = .ok d)
    (hd : t.IsDir d) (hentry : ¬ t.IsDir (d ++ [name])) (hpasses : d ++ [name] ∉ passes t cwd dir)
    (hproper : Proper m) {stat : FileStat} (hfound : t.lookup (d ++ [m]) = some (.file stat))
    (hlookup : (t.unlink (d ++ [name]) h).lookup (d ++ [m]) = some (.file stat))
    {r : Option Listed} (hvisit : visit t cwd dir d m = .ok r) :
    visit (t.unlink (d ++ [name]) h) cwd dir d m = .ok r := by
  have hroot : d ++ [name] ≠ [] := by simp
  have hpath : cStr (join dir m) = join dir m := Deletion.cStr_join hproper.2.2.1 hnul
  rw [visit, entryIsRegular, hfound, hpath] at hvisit
  rw [visit, entryIsRegular, hlookup, hpath]
  dsimp only at hvisit ⊢
  by_cases hext : extension m ≠ ascii ".mp4" ∧ extension m ≠ ascii ".jpg"
  · rw [if_pos hext] at hvisit ⊢
    exact hvisit
  · rw [if_neg hext] at hvisit ⊢
    cases hcontent : fileContent t cwd (join dir m) with
    | error e =>
        rw [hcontent] at hvisit
        cases hvisit
    | ok stat' =>
        -- its path is resolved to the file itself, before and after
        obtain ⟨l, hl, -⟩ := fileContent_eq_ok_iff.mp hcontent
        have hshort := (resolve_eq_ok_iff.mp hl).2.1
        have hbefore := resolve_file hdir hd hproper hfound hshort
        have hdir' := (resolve_unlink (h := h) hroot hentry hpasses).trans hdir
        have hd' := (isDir_unlink_iff (h := h) hroot hentry).mpr hd
        have hafter := resolve_file hdir' hd' hproper hlookup hshort
        rw [fileContent, hbefore] at hvisit
        rw [fileContent, hafter]
        dsimp only at hvisit ⊢
        rw [hfound] at hvisit
        rw [hlookup]
        exact hvisit

/-- A link is visited as before, unless it led through the entry deleted. -/
lemma visit_unlink_link (hnul : 0 ∉ dir) (hentry : ¬ t.IsDir (d ++ [name])) (hproper : Proper m)
    {target : Bytes} (hfound : t.lookup (d ++ [m]) = some (.link target))
    (hlookup : (t.unlink (d ++ [name]) h).lookup (d ++ [m]) = some (.link target))
    {r : Option Listed} (hvisit : visit t cwd dir d m = .ok r) :
    visit (t.unlink (d ++ [name]) h) cwd dir d m =
      .ok (if d ++ [name] ∈ passes t cwd (join dir m) then none else r) := by
  have hroot : d ++ [name] ≠ [] := by simp
  have hpath : cStr (join dir m) = join dir m := Deletion.cStr_join hproper.2.2.1 hnul
  rw [visit, entryIsRegular, hfound, hpath] at hvisit
  rw [visit, entryIsRegular, hlookup, hpath]
  dsimp only at hvisit ⊢
  by_cases hthrough : d ++ [name] ∈ passes t cwd (join dir m)
  · rw [if_pos hthrough]
    cases hregular : isRegularFile t cwd (join dir m) with
    | error e =>
        rw [hregular] at hvisit
        cases hvisit
    | ok b => rw [isRegularFile_unlink_of_passed hroot hentry hthrough hregular]
  · rw [if_neg hthrough, isRegularFile, status_unlink hroot hentry hthrough,
      fileContent_unlink hroot hentry hthrough]
    exact hvisit

/-- **The other entries are visited as before**, except the links that led through the one
deleted. -/
lemma visit_unlink (hnul : 0 ∉ dir) (hdir : resolve t true cwd dir = .ok d) (hd : t.IsDir d)
    (hentry : ¬ t.IsDir (d ++ [name])) (hpasses : d ++ [name] ∉ passes t cwd dir)
    (hm : m ∈ t.names d) (hne : m ≠ name) {r : Option Listed}
    (hvisit : visit t cwd dir d m = .ok r) :
    visit (t.unlink (d ++ [name]) h) cwd dir d m =
      .ok (if leadsThrough t cwd dir d name m then none else r) := by
  have hproper := FileTree.proper_of_mem_names hm
  have hlookup : (t.unlink (d ++ [name]) h).lookup (d ++ [m]) = t.lookup (d ++ [m]) := by
    refine FileTree.lookup_unlink_of_ne fun heq => hne ?_
    exact List.head_eq_of_cons_eq (List.append_cancel_left heq)
  cases hfound : t.lookup (d ++ [m]) with
  | none => exact absurd (FileTree.not_mem_names_iff_lookup.mpr hfound) (not_not.mpr hm)
  | some e =>
      rw [hfound] at hlookup
      cases e with
      | dir =>
          rw [visit, entryIsRegular, hfound] at hvisit
          rw [visit, entryIsRegular, hlookup, leadsThrough, hfound]
          exact hvisit
      | file stat =>
          rw [leadsThrough, hfound]
          exact visit_unlink_file hnul hdir hd hentry hpasses hproper hfound hlookup hvisit
      | link target =>
          rw [leadsThrough, hfound, visit_unlink_link hnul hentry hproper hfound hlookup hvisit]
          simp only [decide_eq_true_eq]

/-- So the loop adds what it added before, without the entry deleted and those links. -/
lemma found_unlink
    (hothers : ∀ m ∈ (t.unlink (d ++ [name]) h).names d,
      visit (t.unlink (d ++ [name]) h) cwd dir d m =
        .ok (if leadsThrough t cwd dir d name m then none else found (visit t cwd dir d m))) :
    (((t.unlink (d ++ [name]) h).names d).filterMap fun m =>
        found (visit (t.unlink (d ++ [name]) h) cwd dir d m)) =
      ((t.names d).filterMap fun m => found (visit t cwd dir d m)).filter fun f =>
        f.name ≠ name && !leadsThrough t cwd dir d name f.name := by
  rw [List.filter_filterMap, FileTree.names_unlink, (t.names_nodup d).erase_eq_filter,
    List.filterMap_filter]
  refine List.filterMap_congr fun m hm => ?_
  by_cases hmn : m = name
  · cases hg : found (visit t cwd dir d m) with
    | none => simp [hmn]
    | some g =>
        have hname := (found_name hg).trans hmn
        simp [hmn, hname, Option.filter]
  · have hmem : m ∈ (t.unlink (d ++ [name]) h).names d := by
      rw [FileTree.names_unlink, (t.names_nodup d).mem_erase_iff]
      exact ⟨hmn, hm⟩
    rw [hothers m hmem]
    cases hg : found (visit t cwd dir d m) with
    | none => cases leadsThrough t cwd dir d name m <;> simp [found, Except.toOption]
    | some g =>
        obtain rfl := found_name hg
        cases hthrough : leadsThrough t cwd dir d name g.name <;>
          simp [found, Except.toOption, Option.filter, hmn, hthrough]

end

/-- **A listed name without `..` is deleted**, and the next listing has the other entries, except
the links that led through the one deleted. -/
theorem listed_deletable {t : FileTree FileStat} {cwd : Location} {dir name : Bytes}
    {clocks : Bytes → ℤ} {listed : List Listed} (hnul : 0 ∉ dir)
    (hlist : listRecordings clocks cwd dir t = .ok listed)
    (hname : name ∈ listed.map Listed.name) (hdots : ¬ ascii ".." <:+: name) :
    ∃ d t', resolve t true cwd dir = .ok d ∧
      Deletion.deleteRecordingFile cwd dir name t = (.ok true, t') ∧
        ∀ clocks', ∃ listed', listRecordings clocks' cwd dir t' = .ok listed' ∧
          listed'.Perm (listed.filter fun f =>
            f.name ≠ name && !leadsThrough t cwd dir d name f.name) := by
  have hdirPath : cStr dir = dir := cStr_eq_self_iff.mpr hnul
  obtain ⟨d, hdir, hd, hvisit, hperm⟩ := listRecordings_eq_ok hlist (by rintro rfl; cases hname)
  -- the name is that of a regular file in the directory
  obtain ⟨f, hf, rfl⟩ := List.mem_map.mp hname
  obtain ⟨n, hn, hfound⟩ := List.mem_filterMap.mp (hperm.mem_iff.mp hf)
  obtain rfl := found_name hfound
  have hproper := FileTree.proper_of_mem_names hn
  have hcheck : refusedName f.name = false :=
    refusedName_eq_false_iff.mpr ⟨hproper.1, hproper.2.1, hdots⟩
  obtain ⟨e, hnames, he, hentry, hpasses, -, hdelete⟩ :=
    Deletion.deleteRecordingFile_of_regular hdir hd hproper.2.2.1 hcheck
      (isRegularFile_of_found hfound)
  have hnotDir := not_isDir_of_lookup he hentry
  have hroot : d ++ [f.name] ≠ [] := by simp
  rw [hdirPath] at hdir
  refine ⟨d, _, hdir, hdelete, fun clocks' => ?_⟩
  -- every other entry is visited again
  have hothers : ∀ m ∈ (t.unlink (d ++ [f.name]) hnames).names d,
      visit (t.unlink (d ++ [f.name]) hnames) cwd dir d m =
        .ok (if leadsThrough t cwd dir d f.name m then none
          else found (visit t cwd dir d m)) := by
    intro m hm
    rw [FileTree.names_unlink, (t.names_nodup d).mem_erase_iff] at hm
    obtain ⟨r, hr⟩ := hvisit m hm.2
    rw [visit_unlink hnul hdir hd hnotDir hpasses hm.2 hm.1 hr, hr]
    rfl
  have hdir' := (resolve_unlink (h := hnames) hroot hnotDir hpasses).trans hdir
  have hd' := (isDir_unlink_iff (h := hnames) hroot hnotDir).mpr hd
  obtain ⟨listed', hlist', hperm'⟩ := listRecordings_of_visit clocks' (hdirPath.symm ▸ hdir') hd'
    fun m hm => ⟨_, hothers m hm⟩
  refine ⟨listed', hlist', hperm'.trans ?_⟩
  rw [found_unlink hothers]
  exact (hperm.filter _).symm

/-! ### Names that are not deleted alone -/

/-- A recording, and a link to it. -/
def linked : FileTree FileStat where
  entries :=
    ⟨[⟨[recDir], .dir⟩, ⟨[recDir, ascii "a.mp4"], .file ⟨5, 0⟩⟩,
      ⟨[recDir, ascii "b.mp4"], .link (ascii "a.mp4")⟩],
      List.nodupKeys_iff_pairwise.mpr (by decide)⟩
  proper := by decide
  inside := by decide

/-- A recording with two dots in its name. -/
def dotted : FileTree FileStat where
  entries :=
    ⟨[⟨[recDir], .dir⟩, ⟨[recDir, ascii "a..mp4"], .file ⟨5, 0⟩⟩],
      List.nodupKeys_iff_pairwise.mpr (by decide)⟩
  proper := by decide
  inside := by decide

/-- The link is deleted, and the recording is listed again. -/
theorem listed_deletable_link :
    leadsThrough linked [] recDir [recDir] (ascii "b.mp4") (ascii "a.mp4") = false ∧
    ∃ d t', resolve linked true [] recDir = .ok d ∧
      Deletion.deleteRecordingFile [] recDir (ascii "b.mp4") linked = (.ok true, t') ∧
        ∀ clocks', ∃ listed', listRecordings clocks' [] recDir t' = .ok listed' ∧
          listed'.Perm ([(⟨ascii "a.mp4", ⟨5, 0⟩⟩ : Listed), ⟨ascii "b.mp4", ⟨5, 0⟩⟩].filter
            fun f => f.name ≠ ascii "b.mp4" &&
              !leadsThrough linked [] recDir d (ascii "b.mp4") f.name) := by
  have hlist : listRecordings (fun _ => 0) [] recDir linked =
      .ok [⟨ascii "a.mp4", ⟨5, 0⟩⟩, ⟨ascii "b.mp4", ⟨5, 0⟩⟩] := by decide
  exact ⟨by decide, listed_deletable (by decide) hlist (by decide) (by decide)⟩

/-- A listed name with two dots is refused; and the link to a recording leaves the listing with
it. -/
theorem listed_not_deletable :
    ¬ Deletable dotted [] recDir (ascii "a..mp4") ∧
      ¬ Deletable linked [] recDir (ascii "a.mp4") := by
  constructor
  · intro h
    obtain ⟨t', -, hdelete, -⟩ := h (fun _ => 0) (fun _ => 0) [⟨ascii "a..mp4", ⟨5, 0⟩⟩]
      (by decide) (by decide)
    have hrefused : (Deletion.deleteRecordingFile [] recDir (ascii "a..mp4") dotted).1 =
        .ok false := by decide
    rw [hdelete] at hrefused
    cases hrefused
  · intro h
    obtain ⟨t', listed', hdelete, hlist, hperm⟩ := h (fun _ => 0) (fun _ => 0)
      [⟨ascii "a.mp4", ⟨5, 0⟩⟩, ⟨ascii "b.mp4", ⟨5, 0⟩⟩] (by decide) (by decide)
    have hnext : listRecordings (fun _ => 0) [] recDir
        (Deletion.deleteRecordingFile [] recDir (ascii "a.mp4") linked).2 = .ok [] := by decide
    rw [hdelete, hlist] at hnext
    cases hnext
    exact absurd hperm.length_eq (by decide)

end RasPiZeroCam
