import RasPiZeroCam.Files.Tree

/-!
How a path is resolved to a location, component by component.

* `scan`: the components up to the next symbolic link that has to be followed, and the locations
  looked up on the way.  `walk`: the links followed as well, as long as the budget lasts.
* `resolve`: a path, from the working directory.  `passes`: the locations its resolution looks up.
* `walk_append`: what comes first in a path is resolved first, and links in it are followed.
* `walk_unlink`, `walk_unlink_of_passed`: without a file or a link, a path that does not pass it is
  resolved as before, and one that does is not found.
-/

namespace Files

/-- The errors of the system calls. -/
inductive Errno where
  | noEntry
  | notDirectory
  | isDirectory
  | tooManyLinks
  | nameTooLong
  | notEmpty
  | busy
  | invalid
  deriving DecidableEq

/-- Where the components lead before a link is followed. -/
inductive Stop where
  | arrived (l : Location)
  | link (dir : Location) (target : List UInt8) (rest : List Name)
  | failed (e : Errno)
  deriving DecidableEq

variable {φ : Type*}

/-- The components of a path. -/
def components (path : Name) : List Name := path.splitOn 47

/-- Where the resolution of a path begins. -/
def begin (cwd : Location) (path : Name) : Location := if path.head? = some 47 then [] else cwd

/-- Follow the components from `here`, up to the next link to follow; `follow` is whether one at
the end is.  The locations looked up come with the result. -/
def scan (t : FileTree φ) (follow : Bool) : Location → List Name → List Location × Stop
  | here, [] => ([], .arrived here)
  | here, c :: rest =>
      if ¬ t.IsDir here then ([], .failed .notDirectory)
      else if c = [] ∨ c = [46] then scan t follow here rest
      else if c = [46, 46] then scan t follow here.dropLast rest
      else if 255 < c.length then ([], .failed .nameTooLong)
      else
        match t.lookup (here ++ [c]) with
        | none => ([here ++ [c]], .failed .noEntry)
        | some (.link target) =>
            if rest = [] ∧ follow = false then ([here ++ [c]], .arrived (here ++ [c]))
            else ([here ++ [c]], .link here target rest)
        | some _ =>
            let r := scan t follow (here ++ [c]) rest
            ((here ++ [c]) :: r.1, r.2)

/-- Follow the components and at most `budget` links: the location, and what is left of the
budget. -/
def walk (t : FileTree φ) (follow : Bool) : ℕ → Location → List Name → Except Errno (Location × ℕ)
  | 0, here, cs =>
      match (scan t follow here cs).2 with
      | .arrived l => .ok (l, 0)
      | .link _ _ _ => .error .tooManyLinks
      | .failed e => .error e
  | budget + 1, here, cs =>
      match (scan t follow here cs).2 with
      | .arrived l => .ok (l, budget + 1)
      | .link dir target rest =>
          if target = [] then .error .noEntry
          else walk t follow budget (begin dir target) (components target ++ rest)
      | .failed e => .error e

/-- The locations that `walk` looks up. -/
def trail (t : FileTree φ) (follow : Bool) : ℕ → Location → List Name → List Location
  | 0, here, cs => (scan t follow here cs).1
  | budget + 1, here, cs =>
      (scan t follow here cs).1 ++
        match (scan t follow here cs).2 with
        | .link dir target rest =>
            if target = [] then []
            else trail t follow budget (begin dir target) (components target ++ rest)
        | _ => []

/-- Resolve a path, of 4095 bytes at most and through 40 links at most. -/
def resolve (t : FileTree φ) (follow : Bool) (cwd : Location) (path : Name) :
    Except Errno Location :=
  if path = [] then .error .noEntry
  else if 4096 ≤ path.length then .error .nameTooLong
  else (walk t follow 40 (begin cwd path) (components path)).map Prod.fst

/-- `p / n` of two paths. -/
def join (p n : Name) : Name :=
  if n.head? = some 47 then n
  else if p = [] ∨ p.getLast? = some 47 then p ++ n
  else p ++ 47 :: n

/-- The locations looked up when a path is resolved. -/
def passes (t : FileTree φ) (cwd : Location) (path : Name) : List Location :=
  trail t true 40 (begin cwd path) (components path)

/-! ### Paths in parts -/

section

variable {t : FileTree φ} {follow : Bool} {here l : Location} {c n : Name} {cs rest : List Name}

/-- A name that is looked up. -/
structure Plain (c : Name) : Prop where
  ne_nil : c ≠ []
  ne_dot : c ≠ [46]
  ne_dotdot : c ≠ [46, 46]
  short : c.length ≤ 255

lemma Proper.plain (h : Proper n) : Plain n := ⟨h.1, h.2.2.2.1, h.2.2.2.2.1, h.2.2.2.2.2⟩

lemma scan_of_not_isDir (h : ¬ t.IsDir here) :
    scan t follow here (c :: rest) = ([], .failed .notDirectory) := by
  rw [scan, if_pos h]

lemma scan_stay (h : t.IsDir here) (hc : c = [] ∨ c = [46]) :
    scan t follow here (c :: rest) = scan t follow here rest := by
  rw [scan, if_neg (not_not.mpr h), if_pos hc]

lemma scan_up (h : t.IsDir here) :
    scan t follow here ([46, 46] :: rest) = scan t follow here.dropLast rest := by
  rw [scan, if_neg (not_not.mpr h), if_neg (by decide), if_pos rfl]

lemma scan_long (h : t.IsDir here) (hc : 255 < c.length) :
    scan t follow here (c :: rest) = ([], .failed .nameTooLong) := by
  have hspecial : ¬ (c = [] ∨ c = [46]) := by rintro (rfl | rfl) <;> simp at hc
  have hup : c ≠ [46, 46] := by rintro rfl; simp at hc
  rw [scan, if_neg (not_not.mpr h), if_neg hspecial, if_neg hup, if_pos hc]

lemma scan_plain (h : t.IsDir here) (hc : Plain c) :
    scan t follow here (c :: rest) =
      match t.lookup (here ++ [c]) with
      | none => ([here ++ [c]], .failed .noEntry)
      | some (.link target) =>
          if rest = [] ∧ follow = false then ([here ++ [c]], .arrived (here ++ [c]))
          else ([here ++ [c]], .link here target rest)
      | some _ =>
          let r := scan t follow (here ++ [c]) rest
          ((here ++ [c]) :: r.1, r.2) := by
  have hspecial : ¬ (c = [] ∨ c = [46]) := not_or.mpr ⟨hc.ne_nil, hc.ne_dot⟩
  rw [scan, if_neg (not_not.mpr h), if_neg hspecial, if_neg hc.ne_dotdot,
    if_neg (Nat.not_lt.mpr hc.short)]

/-- The kinds of components. -/
lemma component_cases (c : Name) :
    (c = [] ∨ c = [46]) ∨ c = [46, 46] ∨ 255 < c.length ∨ Plain c := by
  by_cases hspecial : c = [] ∨ c = [46]
  · exact Or.inl hspecial
  by_cases hup : c = [46, 46]
  · exact Or.inr (Or.inl hup)
  obtain hlong | hshort := Nat.lt_or_ge 255 c.length
  · exact Or.inr (Or.inr (Or.inl hlong))
  · obtain ⟨hnil, hdot⟩ := not_or.mp hspecial
    exact Or.inr (Or.inr (Or.inr ⟨hnil, hdot, hup, hshort⟩))

/-- **What comes first in a path is resolved first**: a link in it is followed, whatever is done
with one at the end. -/
lemma scan_append (hrest : rest ≠ []) :
    (scan t follow here (cs ++ rest)).2 =
      match (scan t true here cs).2 with
      | .arrived l => (scan t follow l rest).2
      | .link dir target r => .link dir target (r ++ rest)
      | .failed e => .failed e := by
  induction cs generalizing here with
  | nil => rfl
  | cons c cs ih =>
      have hne : cs ++ rest ≠ [] := fun h => hrest (List.append_eq_nil_iff.mp h).2
      rw [List.cons_append]
      by_cases hdir : t.IsDir here
      · obtain hstay | rfl | hlong | hplain := component_cases c
        · rw [scan_stay hdir hstay, scan_stay hdir hstay, ih]
        · rw [scan_up hdir, scan_up hdir, ih]
        · rw [scan_long hdir hlong, scan_long hdir hlong]
        · rw [scan_plain hdir hplain, scan_plain hdir hplain]
          cases t.lookup (here ++ [c]) with
          | none => rfl
          | some e =>
              cases e with
              | link target => simp [hne]
              | dir => exact ih
              | file content => exact ih
      · rw [scan_of_not_isDir hdir, scan_of_not_isDir hdir]

theorem walk_append (hrest : rest ≠ []) (budget : ℕ) :
    walk t follow budget here (cs ++ rest) =
      (walk t true budget here cs).bind fun p => walk t follow p.2 p.1 rest := by
  induction budget generalizing here cs with
  | zero =>
      rw [walk, walk, scan_append hrest]
      cases (scan t true here cs).2 with
      | arrived l => rfl
      | link dir target r => rfl
      | failed e => rfl
  | succ budget ih =>
      rw [walk, walk, scan_append hrest]
      cases (scan t true here cs).2 with
      | arrived l => rfl
      | failed e => rfl
      | link dir target r =>
          simp only
          split_ifs with htarget
          · rfl
          · rw [← List.append_assoc, ih]

/-- A larger budget changes nothing but what is left of it. -/
lemma walk_mono {budget left : ℕ} (h : walk t follow budget here cs = .ok (l, left)) (k : ℕ) :
    walk t follow (budget + k) here cs = .ok (l, left + k) := by
  induction budget generalizing here cs with
  | zero =>
      rw [walk] at h
      cases hscan : (scan t follow here cs).2 with
      | arrived l' =>
          rw [hscan] at h
          cases h
          cases k <;> simp [walk, hscan]
      | link dir target r =>
          rw [hscan] at h
          cases h
      | failed e =>
          rw [hscan] at h
          cases h
  | succ budget ih =>
      rw [walk] at h
      rw [Nat.add_right_comm, walk]
      cases hscan : (scan t follow here cs).2 with
      | arrived l' =>
          rw [hscan] at h
          cases h
          rw [Nat.add_right_comm]
      | failed e =>
          rw [hscan] at h
          cases h
      | link dir target r =>
          rw [hscan] at h
          simp only at h ⊢
          split_ifs at h ⊢
          exact ih h

lemma walk_left_le {budget left : ℕ} (h : walk t follow budget here cs = .ok (l, left)) :
    left ≤ budget := by
  induction budget generalizing here cs with
  | zero =>
      rw [walk] at h
      cases hscan : (scan t follow here cs).2 <;> rw [hscan] at h <;> cases h
      exact le_rfl
  | succ budget ih =>
      rw [walk] at h
      cases hscan : (scan t follow here cs).2 with
      | arrived l' =>
          rw [hscan] at h
          cases h
          exact le_rfl
      | failed e =>
          rw [hscan] at h
          cases h
      | link dir target r =>
          rw [hscan] at h
          simp only at h
          split_ifs at h
          exact (ih h).trans (Nat.le_succ _)

end

/-! ### Resolution without an entry -/

section

variable {t : FileTree φ} {follow : Bool} {here k l : Location} {n : Name} {cs : List Name}
  {h : t.names l = []}

lemma isDir_unlink_iff (hroot : l ≠ []) (hdir : ¬ t.IsDir l) :
    (t.unlink l h).IsDir k ↔ t.IsDir k := by
  by_cases hk : k = l
  · subst hk
    refine iff_of_false (fun hk => ?_) hdir
    rw [FileTree.IsDir, FileTree.lookup_unlink hroot] at hk
    cases hk
  · rw [FileTree.IsDir, FileTree.IsDir, FileTree.lookup_unlink_of_ne hk]

/-- The components up to the next link lead where they did, unless the entry is looked up: then
nothing is found. -/
lemma scan_unlink (hroot : l ≠ []) (hdir : ¬ t.IsDir l) :
    (l ∉ (scan t follow here cs).1 → scan (t.unlink l h) follow here cs = scan t follow here cs) ∧
      (l ∈ (scan t follow here cs).1 →
        (scan (t.unlink l h) follow here cs).2 = .failed .noEntry) := by
  induction cs generalizing here with
  | nil => exact ⟨fun _ => rfl, fun hl => by cases hl⟩
  | cons c cs ih =>
      have hsame := isDir_unlink_iff (h := h) (k := here) hroot hdir
      by_cases hhere : t.IsDir here
      · have hhere' := hsame.mpr hhere
        obtain hstay | rfl | hlong | hplain := component_cases c
        · rw [scan_stay hhere hstay, scan_stay hhere' hstay]
          exact ih
        · rw [scan_up hhere, scan_up hhere']
          exact ih
        · rw [scan_long hhere hlong, scan_long hhere' hlong]
          exact ⟨fun _ => rfl, fun hl => by cases hl⟩
        · rw [scan_plain hhere hplain, scan_plain hhere' hplain]
          by_cases hl : here ++ [c] = l
          · -- the entry is looked up here
            have hgone : (t.unlink l h).lookup (here ++ [c]) = none := by
              rw [hl]
              exact FileTree.lookup_unlink hroot
            rw [hgone]
            refine ⟨fun hnot => absurd ?_ hnot, fun _ => rfl⟩
            rw [← hl]
            cases t.lookup (here ++ [c]) with
            | none => exact List.mem_singleton_self _
            | some e =>
                cases e with
                | link target => dsimp only; split_ifs <;> exact List.mem_singleton_self _
                | dir => exact List.mem_cons_self
                | file content => exact List.mem_cons_self
          · rw [FileTree.lookup_unlink_of_ne hl]
            have hne : ¬ l = here ++ [c] := fun heq => hl heq.symm
            cases t.lookup (here ++ [c]) with
            | none => exact ⟨fun _ => rfl, fun hmem => absurd (List.mem_singleton.mp hmem) hne⟩
            | some e =>
                cases e with
                | link target =>
                    dsimp only
                    split_ifs <;>
                      exact ⟨fun _ => rfl, fun hmem => absurd (List.mem_singleton.mp hmem) hne⟩
                | dir =>
                    simp only [List.mem_cons, hne, false_or]
                    exact ⟨fun hnot => by rw [ih.1 hnot], ih.2⟩
                | file content =>
                    simp only [List.mem_cons, hne, false_or]
                    exact ⟨fun hnot => by rw [ih.1 hnot], ih.2⟩
      · rw [scan_of_not_isDir hhere, scan_of_not_isDir (mt hsame.mp hhere)]
        exact ⟨fun _ => rfl, fun hl => by cases hl⟩

/-- **A path that does not pass a file or a link is resolved as before without it.** -/
theorem walk_unlink (hroot : l ≠ []) (hdir : ¬ t.IsDir l) {budget : ℕ}
    (hl : l ∉ trail t follow budget here cs) :
    walk (t.unlink l h) follow budget here cs = walk t follow budget here cs := by
  induction budget generalizing here cs with
  | zero =>
      rw [trail] at hl
      rw [walk, walk, (scan_unlink hroot hdir).1 hl]
  | succ budget ih =>
      rw [trail, List.mem_append, not_or] at hl
      rw [walk, walk, (scan_unlink hroot hdir).1 hl.1]
      cases hscan : (scan t follow here cs).2 with
      | arrived l' => rfl
      | failed e => rfl
      | link dir target rest =>
          dsimp only
          split_ifs with htarget
          · rfl
          · refine ih fun hmem => hl.2 ?_
            rw [hscan]
            dsimp only
            rwa [if_neg htarget]

/-- **One that does pass it is not found.** -/
theorem walk_unlink_of_passed (hroot : l ≠ []) (hdir : ¬ t.IsDir l) {budget : ℕ}
    (hl : l ∈ trail t follow budget here cs) :
    walk (t.unlink l h) follow budget here cs = .error .noEntry := by
  induction budget generalizing here cs with
  | zero =>
      rw [trail] at hl
      rw [walk, (scan_unlink hroot hdir).2 hl]
  | succ budget ih =>
      rw [trail, List.mem_append] at hl
      rw [walk]
      by_cases hfirst : l ∈ (scan t follow here cs).1
      · rw [(scan_unlink hroot hdir).2 hfirst]
      · replace hl := hl.resolve_left hfirst
        rw [(scan_unlink hroot hdir).1 hfirst]
        cases hscan : (scan t follow here cs).2 with
        | arrived l' =>
            rw [hscan] at hl
            cases hl
        | failed e =>
            rw [hscan] at hl
            cases hl
        | link dir target rest =>
            rw [hscan] at hl
            dsimp only at hl ⊢
            split_ifs at hl ⊢ with htarget
            · cases hl
            · exact ih hl

lemma scan_arrived (harrived : (scan t follow here cs).2 = .arrived k) (hk : ¬ t.IsDir k) :
    k ∈ (scan t follow here cs).1 ∨ cs = [] ∧ k = here := by
  induction cs generalizing here with
  | nil =>
      cases harrived
      exact Or.inr ⟨rfl, rfl⟩
  | cons c cs ih =>
      by_cases hhere : t.IsDir here
      · obtain hstay | rfl | hlong | hplain := component_cases c
        · rw [scan_stay hhere hstay] at harrived ⊢
          refine Or.inl ((ih harrived).resolve_right ?_)
          rintro ⟨-, rfl⟩
          exact hk hhere
        · rw [scan_up hhere] at harrived ⊢
          refine Or.inl ((ih harrived).resolve_right ?_)
          rintro ⟨-, rfl⟩
          exact hk hhere.dropLast
        · rw [scan_long hhere hlong] at harrived
          cases harrived
        · refine Or.inl ?_
          rw [scan_plain hhere hplain] at harrived ⊢
          cases hfound : t.lookup (here ++ [c]) with
          | none =>
              rw [hfound] at harrived
              cases harrived
          | some e =>
              rw [hfound] at harrived
              cases e with
              | link target =>
                  dsimp only at harrived ⊢
                  split_ifs at harrived ⊢
                  cases harrived
                  exact List.mem_singleton_self _
              | _ =>
                  obtain hmem | ⟨rfl, rfl⟩ := ih harrived
                  · exact List.mem_cons_of_mem _ hmem
                  · exact List.mem_cons_self
      · rw [scan_of_not_isDir hhere] at harrived
        cases harrived

/-- The file to which a path leads is one that it passes. -/
lemma mem_trail_of_walk {budget left : ℕ} (hcs : cs ≠ [])
    (hwalk : walk t follow budget here cs = .ok (k, left)) (hk : ¬ t.IsDir k) :
    k ∈ trail t follow budget here cs := by
  induction budget generalizing here cs with
  | zero =>
      rw [walk] at hwalk
      rw [trail]
      cases hscan : (scan t follow here cs).2 <;> rw [hscan] at hwalk <;> cases hwalk
      exact (scan_arrived hscan hk).resolve_right fun h => hcs h.1
  | succ budget ih =>
      rw [walk] at hwalk
      rw [trail, List.mem_append]
      cases hscan : (scan t follow here cs).2 with
      | arrived l' =>
          rw [hscan] at hwalk
          cases hwalk
          exact Or.inl ((scan_arrived hscan hk).resolve_right fun h => hcs h.1)
      | failed e =>
          rw [hscan] at hwalk
          cases hwalk
      | link dir target rest =>
          rw [hscan] at hwalk
          dsimp only at hwalk ⊢
          split_ifs at hwalk ⊢
          refine Or.inr (ih (fun h => ?_) hwalk)
          exact List.splitOn_ne_nil 47 target (List.append_eq_nil_iff.mp h).1

/-- Where a name is looked up, the rest of the way is a resolution that begins with it. -/
lemma scan_of_passed (hl : l ++ [n] ∈ (scan t follow here cs).1) :
    ∃ rest, (scan t follow here cs).2 = (scan t follow l (n :: rest)).2 := by
  induction cs generalizing here with
  | nil => cases hl
  | cons c cs ih =>
      by_cases hhere : t.IsDir here
      · obtain hstay | rfl | hlong | hplain := component_cases c
        · rw [scan_stay hhere hstay] at hl ⊢
          exact ih hl
        · rw [scan_up hhere] at hl ⊢
          exact ih hl
        · rw [scan_long hhere hlong] at hl
          cases hl
        · by_cases hfirst : here ++ [c] = l ++ [n]
          · obtain ⟨rfl, hc⟩ := List.append_inj' hfirst rfl
            obtain rfl : c = n := List.head_eq_of_cons_eq hc
            exact ⟨cs, rfl⟩
          · have hne : ¬ l ++ [n] = here ++ [c] := fun heq => hfirst heq.symm
            rw [scan_plain hhere hplain] at hl ⊢
            cases hfound : t.lookup (here ++ [c]) with
            | none =>
                rw [hfound] at hl
                exact absurd (List.mem_singleton.mp hl) hne
            | some e =>
                rw [hfound] at hl
                cases e with
                | link target =>
                    dsimp only at hl
                    split_ifs at hl <;> exact absurd (List.mem_singleton.mp hl) hne
                | dir =>
                    simp only [List.mem_cons, hne, false_or] at hl
                    exact ih hl
                | file content =>
                    simp only [List.mem_cons, hne, false_or] at hl
                    exact ih hl
      · rw [scan_of_not_isDir hhere] at hl
        cases hl

lemma walk_congr {cs' : List Name} {here' : Location}
    (hscan : (scan t follow here cs).2 = (scan t follow here' cs').2) (budget : ℕ) :
    walk t follow budget here cs = walk t follow budget here' cs' := by
  cases budget <;> rw [walk, walk, hscan]

lemma walk_of_passed {budget : ℕ} (hl : l ++ [n] ∈ trail t follow budget here cs) :
    ∃ b ≤ budget, ∃ rest, walk t follow budget here cs = walk t follow b l (n :: rest) := by
  induction budget generalizing here cs with
  | zero =>
      rw [trail] at hl
      obtain ⟨rest, hrest⟩ := scan_of_passed hl
      exact ⟨0, le_rfl, rest, walk_congr hrest 0⟩
  | succ budget ih =>
      rw [trail, List.mem_append] at hl
      obtain hl | hl := hl
      · obtain ⟨rest, hrest⟩ := scan_of_passed hl
        exact ⟨budget + 1, le_rfl, rest, walk_congr hrest _⟩
      · cases hscan : (scan t follow here cs).2 with
        | arrived l' =>
            rw [hscan] at hl
            cases hl
        | failed e =>
            rw [hscan] at hl
            cases hl
        | link dir target rest =>
            rw [hscan] at hl
            dsimp only at hl
            split_ifs at hl with htarget
            · cases hl
            · obtain ⟨b, hb, rest', hwalk⟩ := ih hl
              refine ⟨b, hb.trans (Nat.le_succ _), rest', ?_⟩
              rw [walk, hscan]
              dsimp only
              rw [if_neg htarget, hwalk]

/-- **The way to a directory does not pass its files**, nor links in it that lead to a file. -/
theorem not_passed_of_file {b left : ℕ} {dir file : Location} {r : ℕ}
    (hdir : walk t true b here cs = .ok (dir, left)) (hisDir : t.IsDir dir)
    (hfile : walk t true left dir [n] = .ok (file, r)) (hisFile : ¬ t.IsDir file) :
    dir ++ [n] ∉ trail t true b here cs := by
  intro hl
  obtain ⟨b', -, rest, hwalk⟩ := walk_of_passed hl
  rw [hwalk] at hdir
  -- from there the name leads to the file, with more of the budget left
  obtain ⟨k, rfl⟩ := Nat.exists_eq_add_of_le (walk_left_le hdir)
  have hmore := walk_mono hfile k
  by_cases hrest : rest = []
  · rw [hrest, hmore] at hdir
    cases hdir
    exact hisFile hisDir
  · rw [← List.singleton_append, walk_append hrest, hmore] at hdir
    obtain ⟨c, rest', rfl⟩ := List.exists_cons_of_ne_nil hrest
    have hstuck : walk t true (r + k) file (c :: rest') = .error .notDirectory := by
      cases hrk : r + k <;> rw [walk, scan_of_not_isDir hisFile]
    rw [show (Except.ok (file, r + k)).bind (fun p => walk t true p.2 p.1 (c :: rest')) =
      walk t true (r + k) file (c :: rest') from rfl, hstuck] at hdir
    cases hdir

end

/-! ### A name in a directory -/

section

variable {t : FileTree φ} {follow : Bool} {cwd d l : Location} {dir n : Name} {budget left : ℕ}

lemma join_eq (hdir : dir ≠ []) (hn : 47 ∉ n) :
    join dir n = if dir.getLast? = some 47 then dir ++ n else dir ++ 47 :: n := by
  have hhead : ¬ n.head? = some 47 := fun h => hn (List.mem_of_mem_head? h)
  rw [join, if_neg hhead]
  simp only [hdir, false_or]

lemma begin_append (hdir : dir ≠ []) (rest : Name) : begin cwd (dir ++ rest) = begin cwd dir := by
  rw [begin, begin, List.head?_append_of_ne_nil dir hdir]

/-- A trailing slash asks for a directory. -/
lemma walk_slash (d : Location) (budget : ℕ) :
    walk t true budget d [[]] =
      if t.IsDir d then .ok (d, budget) else .error .notDirectory := by
  split_ifs with hd
  · cases budget <;> rw [walk, scan_stay hd (Or.inl rfl)] <;> rfl
  · cases budget <;> rw [walk, scan_of_not_isDir hd]

/-- **A name in a directory** is resolved from that directory. -/
theorem walk_join (hn : 47 ∉ n) (hne : dir ≠ [])
    (hdir : walk t true budget (begin cwd dir) (components dir) = .ok (d, left))
    (hd : t.IsDir d) :
    walk t follow budget (begin cwd (join dir n)) (components (join dir n)) =
      walk t follow left d [n] := by
  have hcomponents : components n = [n] := List.splitOn_eq_singleton hn
  rw [join_eq hne hn]
  split_ifs with hlast
  · obtain ⟨q, rfl⟩ : ∃ q, dir = q ++ [47] :=
      ⟨dir.dropLast, (List.dropLast_append_getLast? 47 hlast).symm⟩
    have hslash : components (q ++ [47]) = components q ++ [[]] :=
      List.splitOn_append_cons_self q []
    have hjoin : components (q ++ [47] ++ n) = components q ++ [n] := by
      rw [List.append_assoc, List.singleton_append, components,
        List.splitOn_append_cons_self q n]
      exact congrArg (components q ++ ·) hcomponents
    rw [hslash, walk_append (List.cons_ne_nil _ _)] at hdir
    rw [begin_append hne, hjoin, walk_append (List.cons_ne_nil _ _)]
    cases hq : walk t true budget (begin cwd (q ++ [47])) (components q) with
    | error e =>
        rw [hq] at hdir
        cases hdir
    | ok r =>
        rw [hq] at hdir
        replace hdir : walk t true r.2 r.1 [[]] = .ok (d, left) := hdir
        rw [walk_slash] at hdir
        split_ifs at hdir
        cases hdir
        rfl
  · have hjoin : components (dir ++ 47 :: n) = components dir ++ [n] := by
      rw [components, List.splitOn_append_cons_self dir n]
      exact congrArg (components dir ++ ·) hcomponents
    rw [begin_append hne, hjoin, walk_append (List.cons_ne_nil _ _), hdir]
    rfl

/-- What a name without slashes leads to in a directory, other than `..`. -/
lemma walk_name (hd : t.IsDir d) (hup : n ≠ [46, 46]) {r : Location × ℕ}
    (h : walk t true left d [n] = .ok r) (hr : ¬ t.IsDir r.1) :
    Plain n ∧ ∃ e, t.lookup (d ++ [n]) = some e ∧ e ≠ .dir ∧
      (r.1 = d ++ [n] ∨ ∃ target, e = .link target) := by
  have hscan : ∀ b, walk t true left d [n] = .ok r → (scan t true d [n]).2 = .arrived b →
      b = r.1 := by
    intro b h hb
    cases left <;> rw [walk, hb] at h <;> cases h <;> rfl
  obtain hstay | rfl | hlong | hplain := component_cases n
  · obtain rfl := hscan d h (by rw [scan_stay hd hstay]; rfl)
    exact absurd hd hr
  · exact absurd rfl hup
  · cases left <;> rw [walk, scan_long hd hlong] at h <;> cases h
  · refine ⟨hplain, ?_⟩
    have hstep : scan t true d [n] = _ := scan_plain hd hplain
    cases hfound : t.lookup (d ++ [n]) with
    | none =>
        rw [hfound] at hstep
        cases left <;> rw [walk, hstep] at h <;> cases h
    | some e =>
        rw [hfound] at hstep
        cases e with
        | link target => exact ⟨_, rfl, nofun, Or.inr ⟨target, rfl⟩⟩
        | dir =>
            have hloc := hscan (d ++ [n]) h (by rw [hstep]; rfl)
            exact absurd (hloc ▸ hfound) hr
        | file content =>
            have hloc := hscan (d ++ [n]) h (by rw [hstep]; rfl)
            exact ⟨_, rfl, nofun, Or.inl hloc.symm⟩

/-- Without following links it leads to the entry itself. -/
lemma walk_name_itself (hd : t.IsDir d) (hn : Plain n) {e : Entry φ}
    (he : t.lookup (d ++ [n]) = some e) : walk t false left d [n] = .ok (d ++ [n], left) := by
  have hstep : (scan t false d [n]).2 = .arrived (d ++ [n]) := by
    rw [scan_plain hd hn, he]
    cases e <;> rfl
  cases left <;> rw [walk, hstep]

lemma resolve_eq_ok_iff {path : Name} : resolve t follow cwd path = .ok l ↔
    path ≠ [] ∧ path.length < 4096 ∧
      ∃ left, walk t follow 40 (begin cwd path) (components path) = .ok (l, left) := by
  rw [resolve]
  split_ifs with hnil hlong
  · exact iff_of_false nofun fun h => h.1 hnil
  · exact iff_of_false nofun fun h => absurd h.2.1 (Nat.not_lt.mpr hlong)
  · cases walk t follow 40 (begin cwd path) (components path) with
    | error e => exact iff_of_false nofun fun ⟨_, _, _, h⟩ => nomatch h
    | ok r =>
        simp only [Except.map, Except.ok.injEq]
        constructor
        · rintro rfl
          exact ⟨hnil, Nat.lt_of_not_le hlong, r.2, rfl⟩
        · rintro ⟨-, -, left, rfl⟩
          rfl

end

end Files
