import Liquefy.Disk

/-!
# What writing a file changes

A text that is written to a path is what the path leads to afterwards. No folder comes or goes by
it, so every path that led somewhere leads to the same place still, except that the place of the
new file is no longer vacant (`follow_put`), and every other file is as before.
-/

namespace Liquefy

namespace Disk

/-! ### Following a path name by name -/

/-- What is at a route that is no folder's. -/
def found (disk : Disk) (route : Route) : Location :=
  if (disk.file? route).isSome then .file route else .vacant route

/-- A name is refused, it leads to a folder from which the path goes on, or it has to be the last.
Which of these it is depends on the folders only. -/
theorem follow_cons_cases (disk : Disk) (folder : Route) (name : String) :
    (∀ names, disk.follow folder (name :: names) = .error .nameTooLong) ∨
    (∃ folder', ∀ disk' : Disk, disk'.folders = disk.folders → ∀ names,
      disk'.follow folder (name :: names) = disk'.follow folder' names) ∨
    ∀ disk' : Disk, disk'.folders = disk.folders → ∀ names location,
      disk'.follow folder (name :: names) = .ok location ↔
        names = [] ∧ location = disk'.found (folder ++ [name]) := by
  have sameFolders : ∀ disk' : Disk, disk'.folders = disk.folders → ∀ route,
      disk'.isFolder route = disk.isFolder route := by
    intro disk' same route
    rw [isFolder, isFolder, same]
  by_cases stays : name = "" ∨ name = "."
  · refine .inr (.inl ⟨folder, ?_⟩)
    intro disk' _ names
    rw [follow, if_pos stays]
  by_cases up : name = ".."
  · refine .inr (.inl ⟨folder.parent, ?_⟩)
    intro disk' _ names
    rw [follow, if_neg stays, if_pos up]
  by_cases long : name.utf8ByteSize > maxName
  · left
    intro names
    rw [follow, if_neg stays, if_neg up, if_pos long]
  by_cases enters : disk.isFolder (folder ++ [name]) = true
  · refine .inr (.inl ⟨folder ++ [name], ?_⟩)
    intro disk' same names
    rw [← sameFolders disk' same] at enters
    rw [follow, if_neg stays, if_neg up, if_neg long, if_pos enters]
  · refine .inr (.inr ?_)
    intro disk' same names location
    rw [← sameFolders disk' same] at enters
    rw [follow, if_neg stays, if_neg up, if_neg long, if_neg enters]
    by_cases there : (disk'.file? (folder ++ [name])).isSome = true
    · by_cases last : names = []
      · simp [found, there, last, eq_comm]
      · simp [there, last]
    · by_cases last : names = []
      · simp [found, there, last, eq_comm]
      · simp [there, last]

/-- A path with a slash at its end leads to a folder if it leads anywhere. -/
theorem follow_slashed {disk : Disk} {folder : Route} {names : List String} {location : Location}
    (leads : disk.follow folder (names ++ [""]) = .ok location) : location = .folder := by
  induction names generalizing folder with
  | nil =>
      rw [List.nil_append, follow, if_pos (.inl rfl), follow] at leads
      exact (Except.ok.inj leads).symm
  | cons name names ih =>
      rw [List.cons_append] at leads
      obtain refused | ⟨folder', goes⟩ | ends := follow_cons_cases disk folder name
      · rw [refused] at leads
        cases leads
      · rw [goes disk rfl] at leads
        exact ih leads
      · rw [ends disk rfl] at leads
        simp at leads

/-! ### One file more -/

/-- What is at a place once there is a file at the given route. -/
def occupied (route : Route) : Location → Location
  | .vacant place => if place = route then .file place else .vacant place
  | .file place => .file place
  | .folder => .folder

theorem found_put (disk : Disk) (route place : Route) (bytes : ByteArray) :
    (disk.put route bytes).found place = occupied route (disk.found place) := by
  rw [found, found, file?_put]
  by_cases same : place = route
  · by_cases there : (disk.file? place).isSome = true
    · rw [if_pos same, if_pos there]
      rfl
    · rw [if_pos same, if_neg there, occupied, if_pos same]
      rfl
  · by_cases there : (disk.file? place).isSome = true
    · rw [if_neg same, if_pos there]
      rfl
    · rw [if_neg same, if_neg there, occupied, if_neg same]

/-- A path that leads somewhere leads to the same place after a file is written. -/
theorem follow_put {disk : Disk} {folder : Route} {names : List String} {location : Location}
    (leads : disk.follow folder names = .ok location) (route : Route) (bytes : ByteArray) :
    (disk.put route bytes).follow folder names = .ok (occupied route location) := by
  -- Both disks have the same folders, so each name sends both to the same folder; only at the last
  -- name does it matter which files there are.
  induction names generalizing folder with
  | nil =>
      rw [follow] at leads ⊢
      rw [← Except.ok.inj leads]
      rfl
  | cons name names ih =>
      obtain refused | ⟨folder', goes⟩ | ends := follow_cons_cases disk folder name
      · rw [refused] at leads
        cases leads
      · rw [goes disk rfl] at leads
        rw [goes (disk.put route bytes) rfl]
        exact ih leads
      · obtain ⟨last, rfl⟩ := (ends disk rfl names location).1 leads
        apply (ends (disk.put route bytes) rfl names _).2
        exact ⟨last, (found_put disk route (folder ++ [name]) bytes).symm⟩

/-! ### Texts in files -/

section Texts

variable {disk : Disk} {path : String} {route : Route}

/-- The path of a new file leads to its place, where there is nothing yet or already a file. -/
theorem locate_of_locateNew (leads : disk.locateNew path = .ok route) :
    disk.locate path = .ok (.vacant route) ∨ disk.locate path = .ok (.file route) := by
  unfold locateNew at leads
  unfold locate
  cases named : namesOn path with
  | error fault =>
      rw [named] at leads
      cases leads
  | ok names =>
      simp only [named] at leads ⊢
      by_cases slashed : (names.getLast? == some "") = true
      · rw [if_pos slashed] at leads
        cases followed : disk.follow (.start names) (slashedFolder names) with
        | error fault =>
            rw [followed] at leads
            cases leads
        | ok location =>
            obtain rfl := follow_slashed followed
            rw [followed] at leads
            cases leads
      · rw [if_neg slashed] at leads
        cases followed : disk.follow (.start names) names with
        | error fault =>
            rw [followed] at leads
            cases leads
        | ok location =>
            rw [followed] at leads
            cases location with
            | folder => cases leads
            | vacant place =>
                cases leads
                exact .inl rfl
            | file place =>
                cases leads
                exact .inr rfl

theorem locate_put {location : Location} (leads : disk.locate path = .ok location) (route : Route)
    (bytes : ByteArray) : (disk.put route bytes).locate path = .ok (occupied route location) := by
  unfold locate at leads ⊢
  cases named : namesOn path with
  | error fault =>
      rw [named] at leads
      cases leads
  | ok names =>
      simp only [named] at leads ⊢
      exact follow_put leads route bytes

theorem fromUTF8?_toUTF8 (text : String) : String.fromUTF8? text.toUTF8 = some text := by
  have valid : text.toUTF8.IsValidUTF8 := text.isValidUTF8
  rw [String.fromUTF8?, dif_pos valid]
  rfl

theorem readText_of_locate {text : String} (leads : disk.locate path = .ok (.file route))
    (holds : disk.file? route = some text.toUTF8) : disk.readText path = .ok text := by
  simp only [readText, readBytes, leads, holds, fromUTF8?_toUTF8]

/-- The path of a file that is written leads to what is written. -/
theorem readText_put (leads : disk.locateNew path = .ok route) (text : String) :
    (disk.put route text.toUTF8).readText path = .ok text := by
  apply readText_of_locate
  · obtain vacant | there := locate_of_locateNew leads
    · rw [locate_put vacant, occupied, if_pos rfl]
    · rw [locate_put there, occupied]
  · rw [file?_put, if_pos rfl]

/-- The second disk is the first with the text in the file of the path, and nothing else changed. -/
structure Rewritten (disk : Disk) (path text : String) (disk' : Disk) : Prop where
  /-- The path leads to the text. -/
  holds : disk'.readText path = .ok text
  /-- Apart from the file of the path, every file is as before. -/
  files : ∃ route, disk.locateNew path = .ok route ∧ ∀ other,
    disk'.file? other = if other = route then some text.toUTF8 else disk.file? other
  /-- There are the same folders. -/
  folders : disk'.folders = disk.folders

theorem rewritten_put (leads : disk.locateNew path = .ok route) (text : String) :
    Rewritten disk path text (disk.put route text.toUTF8) := by
  refine ⟨readText_put leads text, ⟨route, leads, ?_⟩, rfl⟩
  intro other
  exact file?_put disk route other text.toUTF8

end Texts

end Disk

end Liquefy
