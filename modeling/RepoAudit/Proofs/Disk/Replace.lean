import Mathlib.Tactic.Common
import RepoAudit.Disk.Basic

/-!
# Files that are replaced

A file that was written beside its place and then moved there is read as it was written. Neither step takes a
directory away, so every path leads where it led before, and the file can be replaced again.
-/

namespace RepoAudit.Disk

variable {disk disk' : Disk}

lemma lookup_replaced (place other : List String) (entry : DiskEntry)
    (entries : List (List String × DiskEntry)) :
    (entries.map fun old => if old.1 == place then (place, entry) else old).lookup other =
      if other = place then (entries.lookup other).map fun _ => entry else entries.lookup other := by
  induction entries with
  | nil => simp
  | cons old entries ih =>
    obtain ⟨spot, found⟩ := old
    by_cases same : spot = place <;> by_cases asked : other = place
    · simp [same, asked]
    · have apart : (other == place) = false := by simpa using asked
      simp only [List.map_cons, List.lookup_cons, ih, same, asked, apart, beq_self_eq_true, if_true,
        if_false]
    · have apart : (place == spot) = false := by simpa using Ne.symm same
      have kept : (spot == place) = false := by simpa using same
      rw [asked] at ih ⊢
      simp only [List.map_cons, List.lookup_cons, ih, apart, kept, if_true, Bool.false_eq_true, if_false]
    · have kept : (spot == place) = false := by simpa using same
      simp only [List.map_cons, List.lookup_cons, ih, asked, kept, Bool.false_eq_true, if_false]

lemma find?_put {place : List String} (below : place ≠ []) (entry : DiskEntry) (other : List String) :
    (disk.put place entry).find? other = if other = place then some entry else disk.find? other := by
  by_cases root : other = []
  · simp [find?, root, below.symm]
  have seek (disk : Disk) : disk.find? other = disk.entries.lookup other := by simp [find?, root]
  rw [seek, seek, put]
  split
  · next present =>
    rw [lookup_replaced]
    split
    · next same =>
      subst same
      obtain ⟨old, stored, same⟩ := List.any_eq_true.mp present
      have found : (disk.entries.lookup other).isSome :=
        List.lookup_isSome_iff.mpr ⟨old, stored, beq_iff_eq.mpr (beq_iff_eq.mp same).symm⟩
      obtain ⟨entry', found⟩ := Option.isSome_iff_exists.mp found
      simp [found]
    · rfl
  · next missing =>
    rw [List.lookup_append]
    by_cases same : other = place
    · subst same
      have none : disk.entries.lookup other = none := by
        rw [← Option.not_isSome_iff_eq_none, List.lookup_isSome_iff]
        rintro ⟨old, stored, same⟩
        exact missing (List.any_eq_true.mpr ⟨old, stored, beq_iff_eq.mpr (beq_iff_eq.mp same).symm⟩)
      simp [none]
    · have apart : (other == place) = false := by simpa using same
      simp [List.lookup_cons, apart, same]

/-- What stands at a place after something below the root was removed. -/
lemma find?_remove {place : List String} (below : place ≠ []) (other : List String) :
    (disk.remove place).find? other = if other = place then none else disk.find? other := by
  by_cases root : other = []
  · simp [find?, root, below.symm]
  have seek (disk : Disk) : disk.find? other = disk.entries.lookup other := by simp [find?, root]
  rw [seek, seek, remove]
  induction disk.entries with
  | nil => simp
  | cons old entries ih =>
    obtain ⟨spot, found⟩ := old
    by_cases same : spot = place <;> by_cases asked : other = place
    · simpa [same, asked] using ih
    · have apart : (other == place) = false := by simpa using asked
      simpa [List.lookup_cons, same, asked, apart] using ih
    · have apart : (place == spot) = false := by simpa using Ne.symm same
      simpa [List.lookup_cons, same, asked, apart] using ih
    · simp only [asked, if_false] at ih ⊢
      simp [List.lookup_cons, same, ih]

@[simp] lemma current_put (place : List String) (entry : DiskEntry) :
    (disk.put place entry).current = disk.current := by
  unfold put
  split <;> rfl

/-- A disk that has all directories of another one leads paths to the same places. -/
lemma walk_of_directories
    (directories : ∀ place, disk.find? place = some .directory → disk'.find? place = some .directory)
    {goal : List String} : ∀ {parts place : List String}, disk.walk place parts = .ok goal →
      disk'.walk place parts = .ok goal := by
  intro parts
  -- The induction is on the parts, for any place that they start from.
  induction parts with
  | nil => exact fun leads => leads
  | cons part parts ih =>
    intro place leads
    unfold walk at leads ⊢
    split at leads
    · cases leads
    · cases leads
    · next found =>
      simp only [directories place found]
      split at leads
      · next up =>
        rw [if_pos up]
        exact ih leads
      · next down =>
        rw [if_neg down]
        split at leads
        · cases leads
        · next short =>
          rw [if_neg short]
          exact ih leads

/-- A disk that has all directories of another one, and the same current directory, leads a path to the
same place. -/
lemma locate_of_directories {path : Path} {goal : List String} (current : disk'.current = disk.current)
    (directories : ∀ place, disk.find? place = some .directory → disk'.find? place = some .directory)
    (leads : disk.locate path = .ok goal) : disk'.locate path = .ok goal := by
  rw [locate, current]
  exact walk_of_directories directories leads

/-- A place where no directory stands is below the root. -/
lemma ne_nil_of_free {place : List String} (free : disk.find? place ≠ some .directory) : place ≠ [] := by
  rintro rfl
  exact free rfl

/-- A place where no directory stands can be filled without taking a directory away. -/
lemma directories_put {place : List String} (free : disk.find? place ≠ some .directory) (entry : DiskEntry)
    (other : List String) (stands : disk.find? other = some .directory) :
    (disk.put place entry).find? other = some .directory := by
  rw [find?_put (ne_nil_of_free free), if_neg]
  · exact stands
  · rintro rfl
    exact free stands

/-- A path leads to a place where no directory stands, so a file can be written there. -/
def Takes (disk : Disk) (path : Path) : Prop :=
  ∃ place, disk.locate path = .ok place ∧ disk.find? place ≠ some .directory

lemma write_eq_ok_iff {path : Path} {octets : List UInt8} :
    disk.write path octets = .ok disk' ↔ ∃ place, disk.locate path = .ok place ∧
      disk.find? place ≠ some .directory ∧ disk' = disk.put place (.file octets) := by
  unfold write
  cases disk.locate path with
  | error cause => simp
  | ok place =>
    rcases found : disk.find? place with _ | _ | old
    · simp [found, eq_comm]
    · simp [found]
    · simp [found, eq_comm]

lemma replace_eq_ok_iff {path target : Path} {source : List String} {octets : List UInt8}
    (leads : disk.locate path = .ok source) (stands : disk.find? source = some (.file octets)) :
    disk.replace path target = .ok disk' ↔ ∃ goal, disk.locate target = .ok goal ∧
      disk.find? goal ≠ some .directory ∧ disk' = (disk.remove source).put goal (.file octets) := by
  unfold replace
  rw [leads]
  cases disk.locate target with
  | error cause => simp
  | ok goal =>
    rcases found : disk.find? goal with _ | _ | old
    · simp [stands, found, eq_comm]
    · simp [stands, found]
    · simp [stands, found, eq_comm]

section Replaced

variable {path target : Path} {octets : List UInt8}

/-- When a file was written and then took the place of another one, both paths lead where they led: to the file,
and to a place where files can be written. -/
lemma replaced {written moved : Disk} (writes : disk.write path octets = .ok written)
    (moves : written.replace path target = .ok moved) :
    moved.Takes path ∧ ∃ goal, moved.locate target = .ok goal ∧ moved.find? goal = some (.file octets) := by
  obtain ⟨source, leads, free, rfl⟩ := write_eq_ok_iff.mp writes
  have below := ne_nil_of_free free
  have stands : (disk.put source (.file octets)).find? source = some (.file octets) := by
    rw [find?_put below, if_pos rfl]
  have leads := locate_of_directories (current_put _ _) (directories_put free (.file octets)) leads
  generalize disk.put source (.file octets) = written at moves stands leads
  obtain ⟨goal, goes, free', rfl⟩ := (replace_eq_ok_iff leads stands).mp moves
  have found (other : List String) : ((written.remove source).put goal (.file octets)).find? other =
      if other = goal then some (.file octets) else if other = source then none else written.find? other := by
    rw [find?_put (ne_nil_of_free free'), find?_remove below]
  -- Neither place was a directory: at one the file stood, and at the other no directory stands.
  have directories (place : List String) (is : written.find? place = some .directory) :
      ((written.remove source).put goal (.file octets)).find? place = some .directory := by
    rw [found, if_neg, if_neg]
    · exact is
    · rintro rfl
      rw [stands] at is
      cases is
    · rintro rfl
      exact free' is
  have current : ((written.remove source).put goal (.file octets)).current = written.current := current_put _ _
  refine ⟨⟨source, locate_of_directories current directories leads, ?_⟩,
    goal, locate_of_directories current directories goes, ?_⟩
  · rw [found, if_pos rfl]
    split <;> simp
  · rw [found, if_pos rfl]

/-- A file that was written and then took the place of another one is read there. -/
theorem read_of_replaced {written moved : Disk} (writes : disk.write path octets = .ok written)
    (moves : written.replace path target = .ok moved) : moved.read target = .ok octets := by
  obtain ⟨-, goal, goes, found⟩ := replaced writes moves
  simp only [read, goes, found]

/-- Where files can be written, a file can be written and then take the place of another one. -/
lemma exists_replaced (beside : disk.Takes path) (there : disk.Takes target) (octets : List UInt8) :
    ∃ written moved, disk.write path octets = .ok written ∧ written.replace path target = .ok moved := by
  obtain ⟨source, leads, free⟩ := beside
  obtain ⟨goal, goes, free'⟩ := there
  have below := ne_nil_of_free free
  have stands : (disk.put source (.file octets)).find? source = some (.file octets) := by
    rw [find?_put below, if_pos rfl]
  have kept := directories_put free (.file octets)
  have leads' := locate_of_directories (current_put _ _) kept leads
  have goes' := locate_of_directories (current_put _ _) kept goes
  refine ⟨_, _, write_eq_ok_iff.mpr ⟨source, leads, free, rfl⟩,
    (replace_eq_ok_iff leads' stands).mpr ⟨goal, goes', ?_, rfl⟩⟩
  rw [find?_put below]
  split
  · simp
  · exact free'

end Replaced

/-! ## Directories that are there -/

lemma walk_append (place : List String) (parts more : List String) :
    disk.walk place (parts ++ more) = disk.walk place parts >>= fun reached => disk.walk reached more := by
  induction parts generalizing place with
  | nil => rfl
  | cons part parts ih =>
    rw [List.cons_append, walk, walk]
    rcases disk.find? place with _ | _ | octets
    · rfl
    · dsimp only
      split
      · exact ih _
      split
      · rfl
      · exact ih _
    · rfl

/-- A path with a name leads through a directory. -/
lemma Takes.parent {path : Path} (takes : disk.Takes path) (named : path.parts ≠ []) :
    ∃ place, disk.locate path.parent = .ok place ∧ disk.find? place = some .directory := by
  obtain ⟨goal, leads, -⟩ := takes
  -- The last part is looked up in what the others lead to, so this is a directory.
  rw [locate, ← List.dropLast_concat_getLast named, walk_append] at leads
  rw [locate, Path.parent]
  cases through : disk.walk (if path.rooted then [] else disk.current) path.parts.dropLast with
  | error cause =>
    rw [through] at leads
    cases leads
  | ok place =>
    refine ⟨place, rfl, ?_⟩
    rw [through] at leads
    change disk.walk place [path.parts.getLast named] = .ok goal at leads
    rw [walk] at leads
    rcases found : disk.find? place with _ | _ | octets
    · rw [found] at leads
      cases leads
    · rfl
    · rw [found] at leads
      cases leads

/-- A directory that is there is not made again. -/
lemma makeDirectories_of_directory {path : Path} {place : List String} (leads : disk.locate path = .ok place)
    (stands : disk.find? place = some .directory) : disk.makeDirectories path = (disk, none) := by
  have made : disk.makeDirectory path = .error { cause := .present, path } := by
    simp [makeDirectory, leads, stands]
  have there : disk.isDirectory path = .ok true := by
    simp [isDirectory, entry?, leads, stands, bind, Except.bind, pure, Except.pure]
  simp [makeDirectories, ensureAll, made, there]

end RepoAudit.Disk
