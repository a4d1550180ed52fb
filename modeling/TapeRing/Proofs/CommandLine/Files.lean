import TapeRing.CommandLine.Files

/-! # Writing and reading files

At some paths of a file system what has been written is what is read afterwards (`Keeps`), bytes and
texts alike (`Keeps.readText`). Plain files are kept at every path (`Files.keeps`): the directories
on the way are still there, and the path still leads to the same names. -/

namespace TapeRing.CommandLine

/-! ## Texts -/

theorem toList_loop (bytes : ByteArray) (index : Nat) (before : List UInt8) :
    ByteArray.toList.loop bytes index before =
      before.reverse ++ bytes.data.toList.drop index := by
  fun_induction ByteArray.toList.loop bytes index before with
  | case1 index before hlt ih =>
    have hlt' : index < bytes.data.toList.length := hlt
    have hbyte : bytes.get! index = bytes.data.toList[index] :=
      getElem!_pos bytes.data index hlt
    rw [ih, List.drop_eq_getElem_cons hlt', hbyte, List.reverse_cons, List.append_assoc]
    rfl
  | case2 index before hge =>
    have hge' : bytes.data.toList.length ≤ index := Nat.le_of_not_lt hge
    rw [List.drop_eq_nil_of_le hge', List.append_nil]

/-- The bytes of a text stand for the text. -/
theorem textOf?_toUTF8 (text : String) : textOf? text.toUTF8.toList = some text := by
  have hbytes : text.toUTF8.toList = text.toUTF8.data.toList := toList_loop _ 0 []
  rw [hbytes, textOf?]
  exact dif_pos text.isValidUTF8

/-! ## What is kept -/

/-- What is written to a path is read from it, as it is from that of a plain file. -/
def Keeps {φ : Type} [FileSystem φ] (files : φ) (path : String) : Prop :=
  ∀ bytes files', FileSystem.write files path bytes = (.ok (), files') →
    FileSystem.read files' path = .ok bytes

theorem Keeps.readText {φ : Type} [FileSystem φ] {files files' : φ} {path text : String}
    (h : Keeps files path) (hwrite : FileSystem.writeText files path text = (.ok (), files')) :
    FileSystem.readText files' path = .ok text := by
  rw [FileSystem.readText, h _ _ hwrite]
  simp only [textOf?_toUTF8]

/-! ## Plain files -/

/-- A place where a file is, or where there is room for one. -/
inductive Place.Takes (names : List String) : Place → Prop
  | file (old : List UInt8) : Takes names (.file names old)
  | vacant : Takes names (.vacant names)

namespace Files

variable {fs fs' : Files} {names directory : List String} {path : String} {bytes : List UInt8}

theorem of_write (h : FileSystem.write fs path bytes = (.ok (), fs')) :
    ∃ names place, fs.place path = .ok place ∧ place.Takes names ∧ endsInSlash path = false ∧
      fs' = fs.set names bytes := by
  simp only [FileSystem.write] at h
  rcases hplace : fs.place path with fault | place
  · rw [hplace] at h
    cases h
  · rw [hplace] at h
    cases place with
    | directory => cases h
    | file names old =>
      dsimp only at h
      split at h <;> cases h
      exact ⟨names, _, rfl, .file old, by simp_all, rfl⟩
    | vacant names =>
      dsimp only at h
      split at h <;> cases h
      exact ⟨names, _, rfl, .vacant, by simp_all, rfl⟩

theorem bytes?_set : (fs.set names bytes).bytes? names = some bytes := by
  simp [set, bytes?]

/-- A file more leaves every directory where it is. -/
theorem hasDirectory_set (h : fs.hasDirectory directory) :
    (fs.set names bytes).hasDirectory directory := by
  unfold hasDirectory at h ⊢
  simp only [set, Bool.or_eq_true, List.any_eq_true] at h ⊢
  rcases h with hworking | ⟨⟨entry, old⟩, hmem, hbelow⟩
  · exact Or.inl hworking
  · right
    by_cases hsame : entry = names
    · subst hsame
      exact ⟨_, List.mem_cons_self, hbelow⟩
    · refine ⟨(entry, old), List.mem_cons_of_mem _ ?_, hbelow⟩
      simp [hmem, hsame]

/-- A file does not become a directory. -/
theorem hasDirectory_set_self (bytes : List UInt8) (h : fs.hasDirectory names = false) :
    (fs.set names bytes).hasDirectory names = false := by
  unfold hasDirectory at h ⊢
  simp only [set, Bool.or_eq_false_iff, List.any_eq_false] at h ⊢
  refine ⟨h.1, ?_⟩
  intro entry hmem
  rcases List.mem_cons.mp hmem with rfl | hmem
  · simp
  · exact h.2 entry (List.mem_filter.mp hmem).1

/-- A path that leads to a place for a file leads to the file once it is there. -/
theorem follow_set : ∀ (rest directory : List String) {place : Place},
    fs.follow directory rest = .ok place → Place.Takes names place →
    (fs.set names bytes).follow directory rest = .ok (.file names bytes) := by
  intro rest
  induction rest with
  | nil =>
    intro directory place h htakes
    cases h
    cases htakes
  | cons name rest ih =>
    intro directory place h htakes
    unfold follow at h ⊢
    by_cases hdot : name = "."
    · rw [if_pos hdot] at h ⊢
      exact ih directory h htakes
    rw [if_neg hdot] at h ⊢
    by_cases hup : name = ".."
    · rw [if_pos hup] at h ⊢
      exact ih directory.dropLast h htakes
    rw [if_neg hup] at h ⊢
    by_cases hlong : 255 < name.utf8ByteSize
    · rw [if_pos hlong] at h
      cases h
    rw [if_neg hlong] at h ⊢
    -- Every name but the last has to be that of a directory, which is there as before.
    by_cases hdirectory : fs.hasDirectory (directory ++ [name]) = true
    · rw [if_pos hdirectory] at h
      rw [if_pos (hasDirectory_set hdirectory)]
      exact ih _ h htakes
    · rw [if_neg hdirectory] at h
      have hhere : rest = [] ∧ directory ++ [name] = names := by
        split at h <;> cases h <;> cases htakes <;> exact ⟨rfl, rfl⟩
      obtain ⟨rfl, rfl⟩ := hhere
      have hfile := hasDirectory_set_self bytes (Bool.eq_false_iff.mpr hdirectory)
      rw [if_neg (Bool.eq_false_iff.mp hfile), bytes?_set]

theorem place_set {place : Place} (h : fs.place path = .ok place) (htakes : place.Takes names) :
    (fs.set names bytes).place path = .ok (.file names bytes) := by
  unfold Files.place at h ⊢
  by_cases hlong : 4096 ≤ path.utf8ByteSize
  · rw [if_pos hlong] at h
    cases h
  · rw [if_neg hlong] at h ⊢
    exact follow_set _ _ h htakes

/-- What has been written to a path is read from it. -/
theorem keeps (fs : Files) (path : String) : Keeps fs path := by
  intro bytes fs' h
  obtain ⟨names, place, hplace, htakes, hslash, rfl⟩ := of_write h
  simp only [FileSystem.read, place_set hplace htakes, hslash]
  rfl

end Files

end TapeRing.CommandLine
