import Mathlib.Data.List.Induction
import RepoAudit.Proofs.Disk.Replace

/-!
# Directories in the making

Directories are made one after the other, the uppermost first, so an attempt that is cut short leaves some of them
(`Disk.stages`). No file changes meanwhile, and where a file is read at a path the directories above it are there, so
none is made. A path is steady when no file comes to light under it as directories are made
(`Disk.Steady`): only a path that leads up again from a directory that is missing may not be.
-/

namespace RepoAudit.Disk

/-- The disks that making a directory and those above it goes through, one for each directory that is made. The
first number bounds the number of names. -/
def stages (path : Path) : Nat → Disk → List Disk
  | 0, _ => []
  | steps + 1, disk =>
    match disk.makeDirectory path with
    | .ok made => [made]
    | .error e =>
      if e.cause = .missing ∧ path.parts ≠ [] then
        disk.stages path.parent steps ++
          match ensureAll path.parent steps disk with
          | (above, none) => (above.makeDirectory path).toOption.toList
          | (_, some _) => []
      else []

/-- A disk with the files of another one, and with further directories where nothing was. -/
structure Grows (disk grown : Disk) : Prop where
  current : grown.current = disk.current
  places : ∀ place, grown.find? place = disk.find? place ∨
    disk.find? place = none ∧ grown.find? place = some .directory

namespace Grows

variable {disk grown later : Disk}

lemma refl (disk : Disk) : disk.Grows disk := ⟨rfl, fun _ => .inl rfl⟩

lemma trans (first : disk.Grows grown) (second : grown.Grows later) : disk.Grows later := by
  refine ⟨second.current.trans first.current, fun place => ?_⟩
  obtain same | ⟨free, made⟩ := first.places place
  · rw [← same]
    exact second.places place
  · obtain same | ⟨none, -⟩ := second.places place
    · exact .inr ⟨free, same.trans made⟩
    · rw [made] at none
      cases none

lemma directories (grows : disk.Grows grown) (place : List String) (stands : disk.find? place = some .directory) :
    grown.find? place = some .directory := by
  obtain same | ⟨free, -⟩ := grows.places place
  · exact same.trans stands
  · rw [stands] at free
    cases free

/-- The files of a disk that has grown are those that there were. -/
lemma file (grows : disk.Grows grown) {place : List String} {octets : List UInt8}
    (stands : grown.find? place = some (.file octets)) : disk.find? place = some (.file octets) := by
  obtain same | ⟨-, made⟩ := grows.places place
  · exact same.symm.trans stands
  · rw [made] at stands
    cases stands

end Grows

section Making

variable {disk made : Disk} {path : Path}

lemma makeDirectory_eq_ok_iff : disk.makeDirectory path = .ok made ↔ ∃ place, disk.locate path = .ok place ∧
    disk.find? place = none ∧ made = disk.put place .directory := by
  unfold makeDirectory
  cases disk.locate path with
  | error cause => simp
  | ok place => cases found : disk.find? place <;> simp [found, eq_comm]

lemma grows_of_makeDirectory (makes : disk.makeDirectory path = .ok made) : disk.Grows made := by
  obtain ⟨goal, -, free, rfl⟩ := makeDirectory_eq_ok_iff.mp makes
  have below : goal ≠ [] := by
    rintro rfl
    cases free
  refine ⟨current_put _ _, fun place => ?_⟩
  rw [find?_put below]
  split
  · next same => exact .inr ⟨same ▸ free, rfl⟩
  · exact .inl rfl

/-- After an attempt to make a directory that is there, nothing was made. -/
lemma ensureDirectory_eq_ok (done : disk.ensureDirectory path = .ok made) :
    disk.makeDirectory path = .ok made ∨ (disk.makeDirectory path).toOption = none ∧ made = disk := by
  unfold ensureDirectory at done
  cases makes : disk.makeDirectory path with
  | ok disk' =>
    rw [makes] at done
    exact .inl done
  | error e =>
    rw [makes] at done
    refine .inr ⟨rfl, ?_⟩
    cases there : disk.isDirectory path with
    | error failure => simp [there, bind, Except.bind] at done
    | ok is => cases is <;> simp_all [bind, Except.bind]

lemma ensureDirectory_eq_error {failure : DiskError} (fails : disk.ensureDirectory path = .error failure) :
    (disk.makeDirectory path).toOption = none := by
  unfold ensureDirectory at fails
  cases makes : disk.makeDirectory path with
  | ok disk' => simp [makes] at fails
  | error e => rfl

/-- What an attempt leaves is the last of the disks that it goes through. -/
lemma ensureAll_fst (path : Path) (steps : Nat) (disk : Disk) :
    (ensureAll path steps disk).1 = (disk.stages path steps).getLastD disk := by
  induction steps generalizing path disk with
  | zero => rfl
  | succ steps ih =>
    unfold ensureAll stages
    cases makes : disk.makeDirectory path with
    | ok made => rfl
    | error e =>
      dsimp only
      split
      · have before := ih path.parent disk
        rcases above : ensureAll path.parent steps disk with ⟨parents, _ | failure⟩
        · rw [above] at before
          dsimp only at before ⊢
          cases ensures : parents.ensureDirectory path with
          | ok disk' =>
            obtain made | ⟨none, rfl⟩ := ensureDirectory_eq_ok ensures
            · rw [made]
              exact List.getLastD_concat.symm
            · rw [none]
              exact before.trans (by rw [Option.toList_none, List.append_nil])
          | error failure =>
            rw [ensureDirectory_eq_error ensures]
            exact before.trans (by rw [Option.toList_none, List.append_nil])
        · rw [above] at before
          simpa using before
      · split <;> rfl

lemma grows_of_mem_stages {steps : Nat} {stage : Disk} (passed : stage ∈ disk.stages path steps) :
    disk.Grows stage := by
  induction steps generalizing path stage with
  | zero => cases passed
  | succ steps ih =>
    unfold stages at passed
    cases makes : disk.makeDirectory path with
    | ok made =>
      simp only [makes, List.mem_singleton] at passed
      exact passed ▸ grows_of_makeDirectory makes
    | error e =>
      simp only [makes] at passed
      split at passed
      · obtain passed | passed := List.mem_append.mp passed
        · exact ih passed
        · have last : (ensureAll path.parent steps disk).1 ∈ disk :: disk.stages path.parent steps :=
            ensureAll_fst path.parent steps disk ▸ List.getLastD_mem_cons
          rcases above : ensureAll path.parent steps disk with ⟨parents, _ | failure⟩
          · rw [above] at passed last
            have grown : disk.Grows parents := by
              obtain rfl | stage := List.mem_cons.mp last
              · exact .refl _
              · exact ih stage
            cases makes' : parents.makeDirectory path with
            | ok made =>
              simp only [makes', Except.toOption, Option.toList_some, List.mem_singleton] at passed
              exact passed ▸ grown.trans (grows_of_makeDirectory makes')
            | error e' => simp [makes', Except.toOption] at passed
          · simp [above] at passed
      · cases passed

lemma grows_of_makeDirectories {path : Path} {disk made : Disk} {failure : Option DiskError}
    (makes : disk.makeDirectories path = (made, failure)) : disk.Grows made := by
  have last : made ∈ disk :: disk.stages path (path.parts.length + 1) := by
    obtain rfl : (disk.makeDirectories path).1 = made := congrArg Prod.fst makes
    exact ensureAll_fst path _ disk ▸ List.getLastD_mem_cons
  obtain rfl | stage := List.mem_cons.mp last
  · exact .refl _
  · exact grows_of_mem_stages stage

/-- Nothing is made where something is. -/
lemma stages_of_present {place : List String} {entry : DiskEntry} (leads : disk.locate path = .ok place)
    (stands : disk.find? place = some entry) (steps : Nat) : disk.stages path steps = [] := by
  have present : disk.makeDirectory path = .error { cause := .present, path } := by
    simp [makeDirectory, leads, stands]
  cases steps with
  | zero => rfl
  | succ steps => simp [stages, present]

end Making

/-! ## Paths through directories that are there -/

section Paths

variable {disk : Disk} {path : Path}

lemma read_eq_ok_iff {octets : List UInt8} : disk.read path = .ok octets ↔
    ∃ place, disk.locate path = .ok place ∧ disk.find? place = some (.file octets) := by
  unfold read
  cases disk.locate path with
  | error cause => simp
  | ok place => rcases found : disk.find? place with _ | _ | _ <;> simp [found]

/-- The place of a path, from that of the directory above it. -/
lemma locate_of_parent {place : List String} (named : path.parts ≠ []) (leads : disk.locate path.parent = .ok place)
    (stands : disk.find? place = some .directory) :
    disk.locate path =
      if path.name == ".." then .ok place.dropLast
      else if nameLimit < path.name.utf8ByteSize then .error .nameTooLong
      else .ok (place ++ [path.name]) := by
  have name : path.parts.getLast named = path.name := by
    rw [Path.name, List.getLast?_eq_some_getLast named, Option.getD_some]
  have leads : disk.walk (if path.rooted then [] else disk.current) path.parts.dropLast = .ok place := leads
  rw [locate, ← List.dropLast_concat_getLast named, walk_append, leads, name]
  show disk.walk place [path.name] = _
  rw [walk, stands]
  rfl

end Paths

/-- A path under which no file comes to light as directories are made. -/
def Steady (disk : Disk) (path : Path) : Prop :=
  ∀ grown octets, disk.Grows grown → grown.read path = .ok octets → disk.read path = .ok octets

section Steady

variable {disk grown : Disk} {path : Path}

/-- A file is read as before when directories have been made. -/
lemma Grows.read {octets : List UInt8} (grows : disk.Grows grown) (reads : disk.read path = .ok octets) :
    grown.read path = .ok octets := by
  obtain ⟨place, leads, stands⟩ := read_eq_ok_iff.mp reads
  refine read_eq_ok_iff.mpr ⟨place, locate_of_directories grows.current grows.directories leads, ?_⟩
  obtain same | ⟨free, -⟩ := grows.places place
  · exact same.trans stands
  · rw [stands] at free
    cases free

lemma Steady.grows (steady : disk.Steady path) (grows : disk.Grows grown) : grown.Steady path :=
  fun later octets more reads => grows.read (steady later octets (grows.trans more) reads)

/-- A path through directories that are there is steady. -/
lemma steady_of_parent {place : List String} (named : path.parts ≠ []) (leads : disk.locate path.parent = .ok place)
    (stands : disk.find? place = some .directory) : disk.Steady path := by
  intro grown octets grows reads
  obtain ⟨goal, goes, found⟩ := read_eq_ok_iff.mp reads
  have leads' := locate_of_directories grows.current grows.directories leads
  -- Both disks have the directory above the file, and the rest of the way is the same in both.
  rw [locate_of_parent named leads' (grows.directories place stands), ← locate_of_parent named leads stands] at goes
  exact read_eq_ok_iff.mpr ⟨goal, goes, grows.file found⟩

/-- A path under which a file is read is steady. -/
lemma steady_of_read {octets : List UInt8} (reads : disk.read path = .ok octets) : disk.Steady path := by
  intro grown octets' grows reads'
  rw [grows.read reads] at reads'
  rw [reads, reads']

end Steady

/-! ## Paths that do not lead up -/

/-- A disk whose files and directories stand in directories. -/
def Proper (disk : Disk) : Prop :=
  ∀ place name, (disk.find? (place ++ [name])).isSome = true → disk.find? place = some .directory

section Straight

variable {disk : Disk} {place goal : List String} {parts : List String}

/-- Names that do not lead up lead down, one after the other. -/
lemma walk_straight (straight : ".." ∉ parts) (leads : disk.walk place parts = .ok goal) :
    goal = place ++ parts ∧ ∀ part ∈ parts, part.utf8ByteSize ≤ nameLimit := by
  induction parts generalizing place with
  | nil =>
    cases leads
    exact ⟨(List.append_nil _).symm, nofun⟩
  | cons part parts ih =>
    obtain ⟨down, straight⟩ : ".." ≠ part ∧ ".." ∉ parts := by simpa using straight
    unfold walk at leads
    split at leads
    · cases leads
    · cases leads
    · rw [if_neg (by simpa using Ne.symm down)] at leads
      split at leads
      · cases leads
      · next short =>
        obtain ⟨rfl, rest⟩ := ih straight leads
        exact ⟨by simp, List.forall_mem_cons.mpr ⟨Nat.le_of_not_lt short, rest⟩⟩

lemma Proper.directory (proper : disk.Proper) {rest : List String} (further : rest ≠ [])
    (stands : (disk.find? (place ++ rest)).isSome = true) : disk.find? place = some .directory := by
  induction rest using List.reverseRecOn with
  | nil => exact absurd rfl further
  | append_singleton rest name ih =>
    rw [← List.append_assoc] at stands
    have above := proper _ name stands
    cases rest with
    | nil => rwa [List.append_nil] at above
    | cons part rest => exact ih (List.cons_ne_nil _ _) (by rw [above]; rfl)

lemma Proper.walk_straight (proper : disk.Proper) (straight : ".." ∉ parts)
    (short : ∀ part ∈ parts, part.utf8ByteSize ≤ nameLimit)
    (stands : (disk.find? (place ++ parts)).isSome = true) : disk.walk place parts = .ok (place ++ parts) := by
  induction parts generalizing place with
  | nil => rw [walk, List.append_nil]
  | cons part parts ih =>
    obtain ⟨down, straight⟩ : ".." ≠ part ∧ ".." ∉ parts := by simpa using straight
    obtain ⟨first, short⟩ := List.forall_mem_cons.mp short
    rw [walk, proper.directory (List.cons_ne_nil _ _) stands]
    dsimp only
    rw [if_neg (by simpa using Ne.symm down), if_neg (Nat.not_lt.mpr first), ih straight short (by simpa using stands)]
    simp

end Straight

/-- A path that does not lead up is steady. -/
theorem steady_of_straight {disk : Disk} {path : Path} (proper : disk.Proper) (straight : ".." ∉ path.parts) :
    disk.Steady path := by
  intro grown octets grows reads
  obtain ⟨goal, goes, stands⟩ := read_eq_ok_iff.mp reads
  rw [locate, grows.current] at goes
  obtain ⟨rfl, short⟩ := walk_straight straight goes
  have stands := grows.file stands
  exact read_eq_ok_iff.mpr ⟨_, proper.walk_straight straight short (by rw [stands]; rfl), stands⟩

/-! ## Files beside files -/

section Beside

variable {disk written : Disk} {path : Path} {name : String} {octets : List UInt8}

/-- A file that is written in the directory of a path, under another name, is not what the path leads to. -/
lemma written_beside (named : path.parts ≠ []) (below : name ≠ "..") (apart : name ≠ path.name)
    (writes : disk.write (path.withName name) octets = .ok written) :
    written.locate path = disk.locate path ∧
    (∀ goal, disk.locate path = .ok goal → written.find? goal = disk.find? goal) ∧ written.Steady path := by
  obtain ⟨source, goes, free, rfl⟩ := write_eq_ok_iff.mp writes
  have above : (path.withName name).parent = path.parent := by
    simp [Path.withName, Path.child, Path.parent]
  have last : (path.withName name).name = name := by
    simp [Path.withName, Path.child, Path.name]
  have parts : (path.withName name).parts ≠ [] := by simp [Path.withName, Path.child]
  obtain ⟨place, leads, stands⟩ := Takes.parent ⟨source, goes, free⟩ parts
  have stands' := directories_put free (.file octets) place stands
  have leads' := locate_of_directories (current_put source (.file octets)) (directories_put free (.file octets)) leads
  rw [locate_of_parent parts leads stands, last, if_neg (by simpa using below)] at goes
  rw [above] at leads leads'
  have same : (disk.put source (.file octets)).locate path = disk.locate path := by
    rw [locate_of_parent named leads' stands', ← locate_of_parent named leads stands]
  refine ⟨same, fun goal goes' => ?_, steady_of_parent named leads' stands'⟩
  have source_eq : source = place ++ [name] := by
    split at goes
    · cases goes
    · exact (Except.ok.inj goes).symm
  rw [find?_put (ne_nil_of_free free), if_neg]
  rintro rfl
  rw [locate_of_parent named leads stands] at goes'
  split at goes'
  · -- The path leads up from the directory in which the other file is.
    have lengths := congrArg List.length ((Except.ok.inj goes').trans source_eq)
    simp at lengths
  · split at goes'
    · cases goes'
    · have ends := (Except.ok.inj goes').trans source_eq
      exact apart (List.cons.inj (List.append_cancel_left ends)).1.symm

/-- Where files can be written, they can after a file was written. -/
lemma Takes.write {target : Path} (takes : disk.Takes target) (writes : disk.write path octets = .ok written) :
    written.Takes target := by
  obtain ⟨source, -, free, rfl⟩ := write_eq_ok_iff.mp writes
  obtain ⟨goal, leads, free'⟩ := takes
  refine ⟨goal, locate_of_directories (current_put _ _) (directories_put free _) leads, ?_⟩
  rw [find?_put (ne_nil_of_free free)]
  split
  · simp
  · exact free'

end Beside

end RepoAudit.Disk
