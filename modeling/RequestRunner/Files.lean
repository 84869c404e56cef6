import RequestRunner.Text.Search

/-!
# Files

What the program needs of a file system: reading a file, writing one, and making the directories
that a file is to lie in. `Disk` is any provider of these, `Files` a finite tree of files and
directories that is one, and `FileError` says what went wrong.

Paths are relative to the top of the tree and go down name by name; nothing above the top is known.

Main statement: what is written is read back (`read_write`).
-/

set_option autoImplicit false

namespace RequestRunner

/-- What was tried with a path. -/
inductive FileAction where
  | access
  | makeDirectory
  deriving DecidableEq

/-- The word for what was tried. -/
def FileAction.word : FileAction → String
  | access => "open"
  | makeDirectory => "mkdir"

/-- What went wrong with a file. -/
inductive FileError where
  /-- Nothing lies at the path. -/
  | absent (action : FileAction) (path : String)
  /-- The path leads through something that is no directory. -/
  | notDirectory (action : FileAction) (path : String)
  /-- A directory was to be read. -/
  | directoryRead
  /-- A directory was to be written over. -/
  | directoryWrite (path : String)
  /-- A file lies where a directory is to be made. -/
  | occupied (path : String)
  /-- Anything else that went wrong. -/
  | other (message : String)
  deriving DecidableEq

namespace FileError

/-- The action and the path as they are named in messages. -/
def describe (action : FileAction) (path : String) : String := action.word ++ " '" ++ path ++ "'"

/-- The wording. -/
def message : FileError → String
  | absent action path => "ENOENT: no such file or directory, " ++ describe action path
  | notDirectory action path => "ENOTDIR: not a directory, " ++ describe action path
  | directoryRead => "EISDIR: illegal operation on a directory, read"
  | directoryWrite path => "EISDIR: illegal operation on a directory, " ++ describe .access path
  | occupied path => "EEXIST: file already exists, " ++ describe .makeDirectory path
  | other message => message

/-- Nothing can be reached at the path. -/
def isAbsent : FileError → Bool
  | absent _ _ => true
  | notDirectory _ _ => true
  | _ => false

end FileError

/-- A provider of files. -/
structure Disk (m : Type → Type) where
  /-- The text of a file. -/
  read : (path : String) → m (Except FileError String)
  /-- Sets the text of a file. -/
  write : (path text : String) → m (Except FileError Unit)
  /-- Makes a directory and those it lies in. -/
  makeDirectories : (path : String) → m (Except FileError Unit)

/-- Something lies at the path. -/
def Disk.isPresent {m : Type → Type} [Monad m] (disk : Disk m) (path : String) : m Bool := do
  match ← disk.read path with
  | .ok _ => pure true
  | .error e => pure !e.isAbsent

/-- The directory that a path lies in. -/
def directoryOf (path : String) : String :=
  match path.toList with
  | [] => "."
  | first :: rest =>
    let above := (rest.reverse.dropWhile (· == '/')).dropWhile (· != '/')
    match above with
    | [] => if first == '/' then "/" else "."
    | _ :: above => String.ofList (first :: above.reverse)

/-- What lies at a place of the tree. -/
inductive FileNode where
  | directory
  | file (text : String)
  deriving DecidableEq

/-- A place in the tree: the names from the top down. -/
abbrev Place := List String

/-- A tree of files and directories, as the list of what was put into it. A directory is also there
when something lies in it. -/
structure Files where
  /-- The places and what lies there; no place stands twice. -/
  nodes : List (Place × FileNode)

namespace Files

/-- What was put at a place. -/
def node? (place : Place) : List (Place × FileNode) → Option FileNode
  | [] => none
  | (key, node) :: rest => if key = place then some node else node? place rest

/-- Puts something at a place. -/
def putNode (place : Place) (node : FileNode) :
    List (Place × FileNode) → List (Place × FileNode)
  | [] => [(place, node)]
  | (key, old) :: rest =>
    if key = place then (place, node) :: rest else (key, old) :: putNode place node rest

/-- A place lies in a directory, at any depth. -/
def isInside (directory place : Place) : Bool :=
  directory.isPrefixOf place && directory != place

/-- What lies at a place: what was put there, or a directory if something lies in it. The top is a
directory. -/
def lookup (files : Files) (place : Place) : Option FileNode :=
  if place = [] then some .directory
  else
    match node? place files.nodes with
    | some node => some node
    | none =>
      if files.nodes.any fun (key, _) => isInside place key then some .directory else none

/-- A directory lies at the place. -/
def isDirectory (files : Files) (place : Place) : Bool := files.lookup place == some .directory

/-- The names of a path. -/
def names (path : String) : List String :=
  (Text.splitOn '/' path.toList).map String.ofList

/-- One step along a path: an empty name and a dot stay, two dots go up. -/
def step (place : Place) (name : String) : Place :=
  if name = "" ∨ name = "." then place
  else if name = ".." then if place = [] then [".."] else place.dropLast
  else place ++ [name]

/-- The places that a path leads through, and the one it leads to. -/
def route (place : Place) : List String → List Place × Place
  | [] => ([], place)
  | name :: rest =>
    let (through, target) := route (step place name) rest
    (place :: through, target)

/-- Where a path begins: at the top, unless it is absolute or empty. -/
def origin (path : String) : Place :=
  if path.isEmpty || path.toList.head? == some '/' then ["/"] else []

/-- Follows a path to its place; whatever it leads through has to be a directory. -/
def follow (files : Files) (action : FileAction) (path : String) : Except FileError Place :=
  let (through, target) := route (origin path) (names path)
  match through.find? fun place => !files.isDirectory place with
  | none => .ok target
  | some place =>
    .error (if (files.lookup place).isSome then .notDirectory action path
      else .absent action path)

/-- The text of a file. -/
def read (files : Files) (path : String) : Except FileError String :=
  match files.follow .access path with
  | .error e => .error e
  | .ok place =>
    match files.lookup place with
    | some (.file text) => .ok text
    | some .directory => .error .directoryRead
    | none => .error (.absent .access path)

/-- Sets the text of a file. -/
def write (files : Files) (path text : String) : Except FileError Files :=
  match files.follow .access path with
  | .error e => .error e
  | .ok place =>
    if files.isDirectory place then .error (.directoryWrite path)
    else .ok ⟨putNode place (.file text) files.nodes⟩

/-- Makes a directory at each of some places where nothing lies. -/
def makeAll (path : String) : List Place → Files → Except FileError Files
  | [], files => .ok files
  | place :: rest, files =>
    match files.lookup place with
    | some .directory => makeAll path rest files
    | some (.file _) =>
      .error (if rest.isEmpty then .occupied path else .notDirectory .makeDirectory path)
    | none =>
      if place.head? == some ".." || place.head? == some "/" then
        .error (.absent .makeDirectory path)
      else makeAll path rest ⟨putNode place .directory files.nodes⟩

/-- Makes a directory and those it lies in. -/
def makeDirectories (files : Files) (path : String) : Except FileError Files :=
  let (through, target) := route (origin path) (names path)
  makeAll path (through ++ [target]) files

/-- The outcome of a change, and the files after it. A change that failed changes nothing. -/
def commit (files : Files) : Except FileError Files → Except FileError Unit × Files
  | .ok changed => (.ok (), changed)
  | .error e => (.error e, files)

/-- The tree as a provider of files. -/
def disk : Disk (StateM Files) where
  read path := fun files => (files.read path, files)
  write path text := fun files => files.commit (files.write path text)
  makeDirectories path := fun files => files.commit (files.makeDirectories path)

/-- The tree with some files, named by their paths, and some directories, which have no text. -/
def ofEntries (entries : List (String × Option String)) : Files :=
  ⟨entries.foldl (fun nodes (path, text) =>
    putNode (route [] (names path)).2 ((text.map FileNode.file).getD .directory) nodes) []⟩

theorem node?_putNode_self (place : Place) (node : FileNode) (nodes : List (Place × FileNode)) :
    node? place (putNode place node nodes) = some node := by
  induction nodes with
  | nil => simp [putNode, node?]
  | cons entry rest ih =>
    obtain ⟨key, old⟩ := entry
    by_cases h : key = place <;> simp [putNode, node?, h, ih]

theorem node?_putNode_of_ne {place other : Place} (node : FileNode)
    (nodes : List (Place × FileNode)) (h : other ≠ place) :
    node? other (putNode place node nodes) = node? other nodes := by
  induction nodes with
  | nil => simp [putNode, node?, Ne.symm h]
  | cons entry rest ih =>
    obtain ⟨key, old⟩ := entry
    by_cases hk : key = place
    · subst hk
      simp [putNode, node?, Ne.symm h]
    · by_cases ho : key = other
      · subst ho
        simp [putNode, node?, hk]
      · simp [putNode, node?, hk, ho, ih]

/-- Nothing disappears when something is put. -/
theorem any_putNode {p : Place → Bool} {place : Place} {node : FileNode}
    {nodes : List (Place × FileNode)} (h : nodes.any (fun (key, _) => p key) = true) :
    (putNode place node nodes).any (fun (key, _) => p key) = true := by
  induction nodes with
  | nil => simp at h
  | cons entry rest ih =>
    obtain ⟨key, old⟩ := entry
    by_cases hk : key = place
    · subst hk
      simpa [putNode] using h
    · simp only [putNode, hk, if_false, List.any_cons, Bool.or_eq_true] at h ⊢
      exact h.imp id ih

/-- A directory stays one when a file is put elsewhere. -/
theorem isDirectory_putNode {files : Files} {place other : Place} {node : FileNode}
    (hd : files.isDirectory other = true) (hne : other ≠ place) :
    isDirectory ⟨putNode place node files.nodes⟩ other = true := by
  simp only [isDirectory, lookup] at hd ⊢
  by_cases ho : other = []
  · simp [ho]
  · simp only [ho, if_false] at hd ⊢
    rw [node?_putNode_of_ne node files.nodes hne]
    split
    · next found heq => simpa [heq] using hd
    · next heq =>
      simp only [heq] at hd
      split at hd
      · next hany => rw [if_pos (any_putNode hany)]; decide
      · exact absurd hd (by decide)

/-- **What is written is read back.** -/
theorem read_write {files changed : Files} {path text : String}
    (h : files.write path text = .ok changed) : changed.read path = .ok text := by
  unfold write at h
  split at h
  · exact absurd h (by simp)
  · next place hfollow =>
    split at h
    · exact absurd h (by simp)
    · next hnot =>
      injection h with h
      subst h
      have hroute := hfollow
      unfold follow at hroute
      simp only at hroute
      split at hroute
      · next hfind =>
        injection hroute with hplace
        have hall : ∀ q ∈ (route (origin path) (names path)).1,
            isDirectory ⟨putNode place (.file text) files.nodes⟩ q = true := by
          intro q hq
          have hdir : files.isDirectory q = true := by
            simpa using List.find?_eq_none.1 hfind q hq
          exact isDirectory_putNode hdir fun he => hnot (he ▸ hdir)
        have hnone : (route (origin path) (names path)).1.find?
            (fun q => !isDirectory ⟨putNode place (.file text) files.nodes⟩ q) = none :=
          List.find?_eq_none.2 fun q hq => by simp [hall q hq]
        have htop : place ≠ [] := by
          intro he
          subst he
          exact hnot (by simp [isDirectory, lookup])
        unfold read follow
        simp only [hnone, hplace, lookup, htop, if_false, node?_putNode_self]
      · exact absurd hroute (by simp)

end Files

end RequestRunner
