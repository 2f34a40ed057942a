import Liquefy.Text.Split

/-!
# Files

The files that the commands see, by their place below the working directory. A path is followed
folder by folder, and each way in which it can fail to lead to a file has its message.
-/

namespace Liquefy

/-- Why a file cannot be opened or read. -/
inductive FileFault where
  | notFound
  | notFolder
  | isFolder
  | nameTooLong
  /-- The bytes are not UTF-8. -/
  | notText
  deriving DecidableEq, Repr

/-- The wording of a fault. -/
def FileFault.message : FileFault → String
  | .notFound => "No such file or directory (os error 2)"
  | .notFolder => "Not a directory (os error 20)"
  | .isFolder => "Is a directory (os error 21)"
  | .nameTooLong => "File name too long (os error 36)"
  | .notText => "stream did not contain valid UTF-8"

/-- The names of folders from the working directory down to a file or folder. -/
abbrev Route := List String

/-- The working directory or a folder above it. -/
def Route.isOutward (route : Route) : Bool := route.all (· == "..")

/-- The root of all folders. -/
def Route.root : Route := ["/"]

/-- The folder around a file or folder. Above the working directory there is always another, and
the root is around itself. -/
def Route.parent (route : Route) : Route :=
  if route = root then root
  else if route.isOutward then route ++ [".."]
  else route.dropLast

/-- The route to a name in a folder, where an empty name and a dot stay in the folder. -/
def Route.enter (folder : Route) (name : String) : Route :=
  if name = "" ∨ name = "." then folder
  else if name = ".." then folder.parent
  else folder ++ [name]

/-- The folder at which a path starts: the root if it begins with a slash. -/
def Route.start : List String → Route
  | "" :: _ :: _ => root
  | _ => []

/-- Files with their bytes, and the folders. -/
structure Disk where
  files : List (Route × ByteArray)
  folders : List Route

/-- What a path leads to. -/
inductive Location where
  | file (route : Route)
  | folder
  /-- Nothing, but the folder around it is there. -/
  | vacant (route : Route)

namespace Disk

/-- The bytes of a file. -/
def file? (disk : Disk) (route : Route) : Option ByteArray :=
  (disk.files.find? fun file => file.1 == route).map Prod.snd

/-- Whether a route leads to a folder. The working directory and those above it are folders. -/
def isFolder (disk : Disk) (route : Route) : Bool :=
  route.isOutward || route == .root || disk.folders.contains route

/-- The number of bytes that the name of a file or folder may have. -/
def maxName : Nat := 255

/-- The number of bytes that a path may have. -/
def maxPath : Nat := 4095

/-- Follow names from a folder. Only a folder can be followed further. -/
def follow (disk : Disk) (folder : Route) : List String → Except FileFault Location
  | [] => .ok .folder
  | name :: names =>
      if name = "" ∨ name = "." then follow disk folder names
      else if name = ".." then follow disk folder.parent names
      else if name.utf8ByteSize > maxName then .error .nameTooLong
      else
        let route := folder ++ [name]
        if disk.isFolder route then follow disk route names
        else if (disk.file? route).isSome then
          if names = [] then .ok (.file route) else .error .notFolder
        else if names = [] then .ok (.vacant route)
        else .error .notFound

/-- The names on a path, if it is not too long. -/
def namesOn (path : String) : Except FileFault (List String) :=
  if path.utf8ByteSize > maxPath then .error .nameTooLong else .ok (Text.split '/' path)

/-- What a path leads to. -/
def locate (disk : Disk) (path : String) : Except FileFault Location :=
  match namesOn path with
  | .error fault => .error fault
  | .ok names => disk.follow (.start names) names

/-- The bytes of the file that a path leads to. -/
def readBytes (disk : Disk) (path : String) : Except FileFault ByteArray :=
  match disk.locate path with
  | .error fault => .error fault
  | .ok .folder => .error .isFolder
  | .ok (.vacant _) => .error .notFound
  | .ok (.file route) =>
      match disk.file? route with
      | some bytes => .ok bytes
      | none => .error .notFound

/-- The text of the file that a path leads to. -/
def readText (disk : Disk) (path : String) : Except FileFault String :=
  match disk.readBytes path with
  | .error fault => .error fault
  | .ok bytes =>
      match String.fromUTF8? bytes with
      | some text => .ok text
      | none => .error .notText

/-- Files with the bytes of one of them replaced, or with one more file. -/
def putInto (route : Route) (bytes : ByteArray) :
    List (Route × ByteArray) → List (Route × ByteArray)
  | [] => [(route, bytes)]
  | file :: files =>
      if file.1 == route then (route, bytes) :: files else file :: putInto route bytes files

/-- Give a file its bytes, instead of those that it may have. -/
def put (disk : Disk) (route : Route) (bytes : ByteArray) : Disk :=
  { disk with files := putInto route bytes disk.files }

/-- After a file is written it has the new bytes, and every other file is as before. -/
theorem file?_put (disk : Disk) (route route' : Route) (bytes : ByteArray) :
    (disk.put route bytes).file? route' =
      if route' = route then some bytes else disk.file? route' := by
  obtain ⟨files, folders⟩ := disk
  simp only [put, file?]
  induction files with
  | nil =>
      by_cases asked : route = route'
      · simp [putInto, asked]
      · simp [putInto, asked, Ne.symm asked]
  | cons file files ih =>
      obtain ⟨name, old⟩ := file
      by_cases here : name = route
      · subst here
        by_cases asked : name = route'
        · simp [putInto, asked]
        · simp [putInto, asked, Ne.symm asked]
      · by_cases asked : name = route'
        · subst asked
          simp [putInto, here]
        · simpa [putInto, here, asked] using ih

/-- The names that lead to the folder in which a path ends with slashes after its last name. -/
def slashedFolder (names : List String) : List String :=
  (names.reverse.dropWhile (· == "")).tail.reverse ++ [""]

/-- The route of the file to be created at a path. A slash at the end of the path asks for a
folder, whatever its last name is. -/
def locateNew (disk : Disk) (path : String) : Except FileFault Route :=
  match namesOn path with
  | .error fault => .error fault
  | .ok names =>
      let slashed := names.getLast? == some ""
      match disk.follow (.start names) (if slashed then slashedFolder names else names) with
      | .error fault => .error fault
      | .ok .folder => .error .isFolder
      | .ok (.vacant route) => .ok route
      | .ok (.file route) => .ok route

/-- Write a text to the file that a path leads to, creating the file if there is none. -/
def writeText (disk : Disk) (path : String) (text : String) : Except FileFault Disk :=
  match disk.locateNew path with
  | .error fault => .error fault
  | .ok route => .ok (disk.put route text.toUTF8)

/-- The disk with the given files, and the folders that they stand in. -/
def ofFiles (files : List (String × ByteArray)) : Disk :=
  let routed := files.map fun (name, bytes) => (Text.split '/' name, bytes)
  { files := routed
    folders := routed.flatMap fun (route, _) =>
      (List.range route.length).map fun n => route.take n }

end Disk

end Liquefy
