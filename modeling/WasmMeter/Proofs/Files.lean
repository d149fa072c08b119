import WasmMeter.FileTree
import WasmMeter.Proofs.Traversal

/-!
Reading files that were written. Whatever a file is written over, directories stay what they are and no
other file is touched, so every path leads where it led before. The file that was written holds what
was written to it, and all others hold what they held.
-/
namespace WasmMeter.FileTree

variable {t after : FileTree} {place other : List String} {bytes contents : List UInt8} {text : String}

/-- The place of the file that a text stands for. -/
def place? (t : FileTree) (text : String) : Except FileError (List String) := do
  t.follow (← Path.ofText text)

/-! ### One place -/

theorem find?_put_self (t : FileTree) (place : List String) (bytes : List UInt8) :
    (t.put place bytes).find? place = some (.file bytes) := by
  simp [find?, put]

/-- The files elsewhere are those that were there. -/
theorem lookup_put_of_ne (t : FileTree) (bytes : List UInt8) (h : other ≠ place) :
    (t.put place bytes).files.lookup other = t.files.lookup other := by
  change ((place, bytes) :: t.files.filter (·.1 ≠ place)).lookup other = _
  rw [List.lookup_cons, beq_eq_false_iff_ne.2 h]
  change (t.files.filter (·.1 ≠ place)).lookup other = _
  induction t.files with
  | nil => rfl
  | cons entry files ih =>
      by_cases hsame : entry.1 = place
      · rw [List.filter_cons_of_neg (by simp [hsame]), ih, List.lookup_cons, hsame,
          beq_eq_false_iff_ne.2 h]
      · rw [List.filter_cons_of_pos (by simp [hsame]), List.lookup_cons, List.lookup_cons, ih]

theorem find?_eq_file_iff :
    t.find? place = some (.file bytes) ↔ t.files.lookup place = some bytes := by
  unfold find?
  cases t.files.lookup place with
  | none =>
      dsimp only
      split <;> simp
  | some held => simp

/-- A directory is what leads on to something and is no file. -/
theorem find?_eq_directory_iff : t.find? place = some .directory ↔
    t.files.lookup place = none ∧
      ∃ target ∈ t.current :: t.directories ++ t.files.map (·.1), place.isPrefixOf target = true := by
  unfold find?
  rw [← List.any_eq_true]
  cases t.files.lookup place with
  | none =>
      dsimp only
      split
      · next h => exact iff_of_true rfl ⟨rfl, h⟩
      · next h => exact iff_of_false (by simp) fun hany => h hany.2
  | some held => simp

theorem find?_put_of_file (h : other ≠ place) (hfile : t.find? other = some (.file contents)) :
    (t.put place bytes).find? other = some (.file contents) := by
  rw [find?_eq_file_iff] at hfile ⊢
  rwa [lookup_put_of_ne t bytes h]

/-- A file that takes no directory's place leaves all directories: one that only led on to the file
that it replaces leads on to it. -/
theorem find?_put_of_directory (hplace : t.find? place ≠ some .directory)
    (h : t.find? other = some .directory) :
    (t.put place bytes).find? other = some .directory := by
  have hne : other ≠ place := by
    rintro rfl
    exact hplace h
  obtain ⟨hlookup, target, htarget, hprefix⟩ := find?_eq_directory_iff.1 h
  refine find?_eq_directory_iff.2 ⟨(lookup_put_of_ne t bytes hne).trans hlookup, target, ?_, hprefix⟩
  rcases List.mem_append.1 htarget with hleads | hfile
  · exact List.mem_append_left _ hleads
  · refine List.mem_append_right _ ?_
    obtain ⟨entry, hentry, rfl⟩ := List.mem_map.1 hfile
    by_cases hsame : entry.1 = place
    · rw [hsame]
      exact List.mem_cons_self
    · exact List.mem_cons_of_mem _
        (List.mem_map_of_mem (List.mem_filter.2 ⟨hentry, by simpa using hsame⟩))

/-! ### Paths -/

theorem directory_of_step {name : String} (h : t.step place name = .ok other) :
    t.find? place = some .directory := by
  unfold step at h
  split at h
  · cases h
  · cases h
  · assumption

theorem step_put {name : String} {start : List String} (hplace : t.find? place ≠ some .directory)
    (h : t.step start name = .ok other) : (t.put place bytes).step start name = .ok other := by
  have hstart := directory_of_step h
  unfold step at h ⊢
  rw [find?_put_of_directory hplace hstart]
  rwa [hstart] at h

/-- A path that leads somewhere leads there still. The induction is on its names. -/
theorem follow_put {path : Path} (hplace : t.find? place ≠ some .directory)
    (h : t.follow path = .ok other) : (t.put place bytes).follow path = .ok other := by
  unfold follow at h ⊢
  change path.names.foldlM (t.put place bytes).step (if path.isAbsolute then [] else t.current) = _
  generalize (if path.isAbsolute then [] else t.current) = start at h ⊢
  generalize path.names = names at h ⊢
  induction names generalizing start with
  | nil => exact h
  | cons name names ih =>
      rw [List.foldlM_cons] at h ⊢
      obtain ⟨middle, hstep, hrest⟩ := ok_of_bind_iff.1 h
      exact ok_of_bind_iff.2 ⟨middle, step_put hplace hstep, ih middle hrest⟩

/-- The directory that a file is in is a directory. -/
theorem directory_of_follow_parent {path : Path} (h : t.follow path.parent = .ok place) :
    t.find? place = some .directory := by
  unfold follow Path.parent at h
  rw [List.foldlM_append] at h
  obtain ⟨middle, -, hlast⟩ := ok_of_bind_iff.1 h
  rw [List.foldlM_cons] at hlast
  obtain ⟨last, hstep, hnil⟩ := ok_of_bind_iff.1 hlast
  obtain rfl : last = place := ok_of_pure_iff.1 hnil
  have hmiddle := directory_of_step hstep
  unfold step at hstep
  rw [hmiddle] at hstep
  obtain rfl : middle = last := ok_of_pure_iff.1 hstep
  exact hmiddle

/-! ### Reading and writing -/

/-- What is read is a file, and its path does not ask for a directory. -/
theorem read_eq_ok_iff : t.read text = .ok bytes ↔
    ∃ path place, Path.ofText text = .ok path ∧ path.endsInSlash = false ∧
      t.follow path = .ok place ∧ t.find? place = some (.file bytes) := by
  unfold read
  rw [ok_of_bind_iff]
  constructor
  · rintro ⟨path, hpath, h⟩
    obtain ⟨place, hfollow, h⟩ := ok_of_bind_iff.1 h
    split at h
    · cases h
    · cases h
    · next held hfind =>
      split at h
      · cases h
      · next hslash =>
        obtain rfl := ok_of_pure_iff.1 h
        exact ⟨path, place, hpath, Bool.eq_false_iff.2 hslash, hfollow, hfind⟩
  · rintro ⟨path, place, hpath, hslash, hfollow, hfind⟩
    refine ⟨path, hpath, ok_of_bind_iff.2 ⟨place, hfollow, ?_⟩⟩
    rw [hfind, hslash]
    rfl

/-- A file is written where no directory is, and nothing else changes. -/
theorem write_eq_ok_iff : t.write text bytes = .ok after ↔
    ∃ path place, Path.ofText text = .ok path ∧ path.endsInSlash = false ∧
      t.follow path = .ok place ∧ t.find? place ≠ some .directory ∧ after = t.put place bytes := by
  unfold write
  rw [ok_of_bind_iff]
  constructor
  · rintro ⟨path, hpath, h⟩
    obtain ⟨place, hfollow, h⟩ := ok_of_bind_iff.1 h
    split at h
    · cases h
    · next hplace =>
      obtain rfl := ok_of_pure_iff.1 h
      cases hslash : path.endsInSlash with
      | true =>
          rw [hslash, if_pos rfl] at hfollow
          exact absurd (directory_of_follow_parent hfollow) hplace
      | false =>
          rw [hslash, if_neg Bool.false_ne_true] at hfollow
          exact ⟨path, place, hpath, hslash, hfollow, hplace, rfl⟩
  · rintro ⟨path, place, hpath, hslash, hfollow, hplace, rfl⟩
    refine ⟨path, hpath, ok_of_bind_iff.2 ⟨place, ?_, ?_⟩⟩
    · rwa [hslash, if_neg Bool.false_ne_true]
    · rw [if_neg hplace]
      rfl

/-- What was written is read. -/
theorem read_of_write (h : t.write text bytes = .ok after) : after.read text = .ok bytes := by
  obtain ⟨path, place, hpath, hslash, hfollow, hplace, rfl⟩ := write_eq_ok_iff.1 h
  exact read_eq_ok_iff.2
    ⟨path, place, hpath, hslash, follow_put hplace hfollow, find?_put_self t place bytes⟩

/-- Whatever else could be read is read as before, by any path that leads to another place. -/
theorem read_of_write_of_ne {name : String} (h : t.write text bytes = .ok after)
    (hne : t.place? name ≠ t.place? text) (hread : t.read name = .ok contents) :
    after.read name = .ok contents := by
  obtain ⟨path, place, hpath, -, hfollow, hplace, rfl⟩ := write_eq_ok_iff.1 h
  obtain ⟨path', place', hpath', hslash', hfollow', hfind⟩ := read_eq_ok_iff.1 hread
  have hplaces : place' ≠ place := by
    rintro rfl
    refine hne ?_
    rw [place?, place?, hpath, hpath']
    exact hfollow'.trans hfollow.symm
  exact read_eq_ok_iff.2
    ⟨path', place', hpath', hslash', follow_put hplace hfollow', find?_put_of_file hplaces hfind⟩

end WasmMeter.FileTree
