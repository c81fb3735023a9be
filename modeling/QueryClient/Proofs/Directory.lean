/-
  QueryClient/Proofs/Directory.lean
  =================================
  **Writing one file changes one file.** A path leads somewhere through folders, and
  folders are what lies on the way to files. So a file written where there was none might
  make folders, and then other paths would lead elsewhere. It makes none: the file lies in
  a folder that was there before (`Directory.isFolder_dropLast_of_locate?`, by induction on
  the parts of the path), and so do all folders above it.

  Hence every path leads to the same place before and after (`Directory.locate?_put`), and
  only the paths that lead to the file read something new.

  It makes no difference whether a path is given from the folder that a run works in or from
  the root: the first is the second without the way to that folder
  (`Directory.locate?_fromRoot`).
-/
import QueryClient.Directory

namespace QueryClient.Directory

variable {d d' : Directory} {l l' working : Location} {path : String} {bs : Bytes}

/-! ### Files -/

theorem contents?_put_same (d : Directory) (l : Location) (bs : Bytes) :
    (d.put l bs).contents? l = some bs := by
  simp [contents?, put]

theorem contents?_put_ne (h : l' ≠ l) : (d.put l bs).contents? l' = d.contents? l' := by
  have hkept (files : List (Location × Bytes)) :
      (files.filter (·.1 != l)).lookup l' = files.lookup l' := by
    induction files with
    | nil => rfl
    | cons f files ih =>
      obtain ⟨place, contents⟩ := f
      by_cases hplace : place = l
      · subst hplace
        simp [List.lookup_cons, beq_false_of_ne h, ih]
      · simp [List.lookup_cons, hplace, ih]
  simp [contents?, put, List.lookup_cons, beq_false_of_ne h, hkept]

/-! ### Folders -/

theorem isFolder_iff :
    d.isFolder l = true ↔ l = [] ∨ ∃ f ∈ d.files, l <+: f.1 ∧ l.length < f.1.length := by
  simp [isFolder]

theorem isFolder_of_below (h : d.isFolder l = true) (hbelow : l' <+: l) :
    d.isFolder l' = true := by
  rw [isFolder_iff] at h ⊢
  rcases h with rfl | ⟨f, hf, hl, hlength⟩
  · left
    exact List.prefix_nil.mp hbelow
  · right
    exact ⟨f, hf, hbelow.trans hl, Nat.lt_of_le_of_lt hbelow.length_le hlength⟩

theorem prefix_dropLast (hbelow : l' <+: l) (hlength : l'.length < l.length) :
    l' <+: l.dropLast := by
  rw [List.prefix_iff_eq_take] at hbelow ⊢
  rw [List.dropLast_eq_take, List.take_take, Nat.min_eq_left (by omega)]
  exact hbelow

/-- A file in a folder makes no folders. -/
theorem isFolder_put (h : d.isFolder l.dropLast = true) (l' : Location) :
    (d.put l bs).isFolder l' = d.isFolder l' := by
  rw [Bool.eq_iff_iff]
  constructor
  · intro hnew
    rcases isFolder_iff.mp hnew with rfl | ⟨f, hf, hbelow, hlength⟩
    · rfl
    · rcases List.mem_cons.mp hf with rfl | hold
      · exact isFolder_of_below h (prefix_dropLast hbelow hlength)
      · exact isFolder_iff.mpr (.inr ⟨f, (List.mem_filter.mp hold).1, hbelow, hlength⟩)
  · intro hold
    rcases isFolder_iff.mp hold with rfl | ⟨f, hf, hbelow, hlength⟩
    · rfl
    · -- the file below the folder is still there, perhaps with new contents
      rw [isFolder_iff]
      right
      by_cases hplace : f.1 = l
      · exact ⟨(l, bs), List.mem_cons_self, hplace ▸ hbelow, hplace ▸ hlength⟩
      · have hkept : f ∈ d.files.filter (·.1 != l) := by simp [hf, hplace]
        exact ⟨f, List.mem_cons_of_mem _ hkept, hbelow, hlength⟩

/-! ### Paths -/

/-- **One part of a path.** Wherever it leads lies in a folder. -/
theorem isFolder_dropLast_of_step {part : String} (h : d.step l part = some l') :
    d.isFolder l'.dropLast = true := by
  unfold step at h
  split at h
  · cases h
  · rename_i hfolder
    have hfolder : d.isFolder l = true := by simpa using hfolder
    have hback : d.isFolder l.dropLast = true :=
      isFolder_of_below hfolder (List.dropLast_prefix l)
    split at h
    · cases h
      exact hback
    · split at h
      · cases h
        exact isFolder_of_below hback (List.dropLast_prefix _)
      · split at h
        · cases h
          rw [List.dropLast_concat]
          exact hfolder
        · cases h

theorem isFolder_dropLast_of_foldlM {part : String} {parts : List String}
    (h : (part :: parts).foldlM d.step l = some l') : d.isFolder l'.dropLast = true := by
  induction parts generalizing l part with
  | nil =>
    rw [List.foldlM_cons] at h
    obtain ⟨next, hstep, hrest⟩ := Option.bind_eq_some_iff.mp h
    cases hrest
    exact isFolder_dropLast_of_step hstep
  | cons next parts ih =>
    rw [List.foldlM_cons] at h
    obtain ⟨_, -, hrest⟩ := Option.bind_eq_some_iff.mp h
    exact ih hrest

theorem parts_ne_nil (path : String) : parts path ≠ [] := by
  rw [parts, ne_eq, List.map_eq_nil_iff]
  exact List.splitOn_ne_nil '/' path.toList

theorem isFolder_dropLast_of_locate? (h : d.locate? path working = some l) :
    d.isFolder l.dropLast = true := by
  obtain ⟨part, rest, hparts⟩ := List.exists_cons_of_ne_nil (parts_ne_nil path)
  rw [locate?, hparts] at h
  split at h
  · cases h
  · exact isFolder_dropLast_of_foldlM h

theorem locate?_congr (h : ∀ l, d'.isFolder l = d.isFolder l) (path : String)
    (working : Location) : d'.locate? path working = d.locate? path working := by
  have hstep : d'.step = d.step := by
    funext l part
    simp only [step, h]
  simp only [locate?, hstep]

theorem locate?_put (bs : Bytes) (h : d.isFolder l.dropLast = true) (path : String)
    (working : Location) : (d.put l bs).locate? path working = d.locate? path working :=
  locate?_congr (isFolder_put h) path working

/-! ### Paths from the root -/

/-- Can the part of a path be the name of a file or a folder? -/
def IsProper (name : String) : Prop :=
  isName name = true ∧ name ≠ "" ∧ name ≠ "." ∧ name ≠ ".." ∧ '/' ∉ name.toList

/-- The path from the root that goes to a folder first. -/
def fromRoot (folder : Location) (path : String) : String :=
  "/" ++ folder.foldr (fun name rest => name ++ "/" ++ rest) path

theorem parts_append_slash (front back : String) :
    parts (front ++ "/" ++ back) = parts front ++ parts back := by
  have hchars : (front ++ "/" ++ back).toList = front.toList ++ '/' :: back.toList := by simp
  rw [parts, hchars, List.splitOn_append_cons_self, List.map_append]
  rfl

theorem parts_of_notMem {name : String} (h : '/' ∉ name.toList) : parts name = [name] := by
  rw [parts, List.splitOn_eq_singleton h, List.map_singleton, String.ofList_toList]

theorem parts_fromRoot (h : ∀ name ∈ l, IsProper name) (path : String) :
    parts (fromRoot l path) = "" :: (l ++ parts path) := by
  have hbelow : parts (l.foldr (fun name rest => name ++ "/" ++ rest) path) = l ++ parts path := by
    induction l with
    | nil => rfl
    | cons name rest ih =>
      have hname := h name List.mem_cons_self
      have hrest := ih fun other hother => h other (List.mem_cons_of_mem _ hother)
      rw [List.foldr_cons, parts_append_slash, parts_of_notMem hname.2.2.2.2, hrest]
      rfl
  rw [← hbelow]
  exact parts_append_slash "" _

/-- The names on the way to a folder lead there. -/
theorem foldlM_step_of_isFolder {names : List String} (h : d.isFolder (l ++ names) = true)
    (hproper : ∀ name ∈ names, IsProper name) : names.foldlM d.step l = some (l ++ names) := by
  induction names generalizing l with
  | nil => simp
  | cons name names ih =>
    have hfolder : d.isFolder l = true := isFolder_of_below h (List.prefix_append _ _)
    obtain ⟨hname, hempty, hdot, hdots, -⟩ := hproper name List.mem_cons_self
    have hstep : d.step l name = some (l ++ [name]) := by
      simp [step, hfolder, hname, hempty, hdot, hdots]
    rw [List.append_cons] at h ⊢
    rw [List.foldlM_cons, hstep, Option.bind_eq_bind, Option.bind_some]
    exact ih h fun other hother => hproper other (List.mem_cons_of_mem _ hother)

theorem utf8ByteSize_le_fromRoot (folder : Location) (path : String) :
    path.utf8ByteSize ≤ (fromRoot folder path).utf8ByteSize := by
  rw [fromRoot, String.utf8ByteSize_append]
  induction folder with
  | nil => exact Nat.le_add_left _ _
  | cons name rest ih =>
    rw [List.foldr_cons, String.utf8ByteSize_append]
    omega

/-- **Paths from a folder.** From the folder that a run works in, a path leads where it leads
    from the root, with the way to the folder in front. -/
theorem locate?_fromRoot (hworking : d.isFolder working = true)
    (hproper : ∀ name ∈ working, IsProper name) (hpath : path ≠ "")
    (hrelative : isAbsolute path = false)
    (hlength : (fromRoot working path).utf8ByteSize ≤ longestPath) (l : Location) :
    d.locate? (fromRoot working path) l = d.locate? path working := by
  have hshort := Nat.le_trans (utf8ByteSize_le_fromRoot working path) hlength
  have habsolute : isAbsolute (fromRoot working path) = true := by simp [isAbsolute, fromRoot]
  have hsome : fromRoot working path ≠ "" := by
    intro hempty
    rw [hempty] at habsolute
    cases habsolute
  have hstart : d.step [] "" = some [] := rfl
  have hwalk : working.foldlM d.step [] = some working := foldlM_step_of_isFolder hworking hproper
  simp only [locate?, hsome, hpath, Nat.not_lt.mpr hlength, Nat.not_lt.mpr hshort, habsolute,
    hrelative, parts_fromRoot hproper, List.foldlM_cons, List.foldlM_append, hstart, hwalk,
    decide_false, Bool.or_self, Bool.false_eq_true, if_false, if_true, Option.bind_eq_bind,
    Option.bind_some]

/-! ### Reading and writing -/

theorem read_eq_ok_iff :
    d.read path working = .ok bs ↔
      ∃ l, d.locate? path working = some l ∧ d.contents? l = some bs := by
  rw [← Option.bind_eq_some_iff, read]
  cases (d.locate? path working).bind d.contents? <;> simp

theorem exists_write_iff :
    (∃ d', d.write path bs working = .ok d') ↔
      ∃ l, d.locate? path working = some l ∧ d.isFolder l = false := by
  rw [write]
  cases d.locate? path working with
  | none => simp
  | some l => cases hfolder : d.isFolder l <;> simp [hfolder]

/-- What the tree is after a file was written from the folder that a run works in: every path
    leads where it led before, the paths to the file read the new contents, and nothing else
    has changed. -/
structure Wrote (d : Directory) (working : Location) (path : String) (bs : Bytes)
    (d' : Directory) : Prop where
  locate? : ∀ other folder, d'.locate? other folder = d.locate? other folder
  there : ∀ other folder, d.locate? other folder = d.locate? path working →
    d'.read other folder = .ok bs
  elsewhere : ∀ other folder, d.locate? other folder ≠ d.locate? path working →
    d'.read other folder = d.read other folder
  contents? : ∀ l, d.locate? path working ≠ some l → d'.contents? l = d.contents? l

/-- **Writing one file changes one file.** -/
theorem wrote_of_write (h : d.write path bs working = .ok d') : d.Wrote working path bs d' := by
  unfold write at h
  split at h
  · rename_i l hl
    split at h
    · cases h
    · cases h
      have hlocate := locate?_put bs (isFolder_dropLast_of_locate? hl)
      refine ⟨hlocate, ?_, ?_, ?_⟩
      · intro other folder hsame
        rw [read_eq_ok_iff, hlocate, hsame]
        exact ⟨l, hl, contents?_put_same d l bs⟩
      · intro other folder hother
        rw [read, read, hlocate]
        cases hl' : d.locate? other folder with
        | none => rfl
        | some l' =>
          have hne : l' ≠ l := by
            rintro rfl
            exact hother (hl'.trans hl.symm)
          rw [Option.bind_some, Option.bind_some, contents?_put_ne hne]
      · intro l' hne
        apply contents?_put_ne
        rintro rfl
        exact hne hl
  · cases h

end QueryClient.Directory
