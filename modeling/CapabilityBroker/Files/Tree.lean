/-!
# File trees

What is stored under the paths of a system of files, as far as it is known:
the tree below the present directory, and that there are directories above
it, up to the root. A path is walked name by name, and only a directory
leads on; so `a/../b` is nowhere if there is no `a`.
-/

namespace CapabilityBroker

namespace FileTree

/-- What is at a place. -/
inductive Node where
  | directory
  | text (content : String)
  /-- A file whose bytes are no text. -/
  | binary
  deriving DecidableEq, Repr

/-- Where a path sets out: at the root, or so many levels above the present
directory. -/
inductive Base where
  | root
  | above (levels : Nat)
  deriving DecidableEq, Repr

/-- A place: a base, and the names of the way down from it. -/
structure Place where
  base : Base
  names : List String
  deriving DecidableEq, Repr

end FileTree

/-- A tree of files: the nodes that are known, by their places. -/
structure FileTree where
  nodes : List (FileTree.Place × FileTree.Node)
  deriving Repr

namespace FileTree

/-! ## Walking -/

/-- What stands between the slashes of a text, which may be nothing. -/
def segments : List Char → List (List Char)
  | [] => [[]]
  | c :: cs =>
    if c = '/' then [] :: segments cs
    else match segments cs with
      | [] => [[c]]
      | s :: rest => (c :: s) :: rest

/-- The names on a path. -/
def names (path : String) : List String := (segments path.toList).map String.ofList

namespace Place

/-- The present directory. -/
def here : Place := ⟨.above 0, []⟩

/-- The directory that a place is in. The root is in itself. -/
def parent (p : Place) : Place :=
  match p.names, p.base with
  | [], .root => p
  | [], .above levels => ⟨.above (levels + 1), []⟩
  | _ :: _, _ => { p with names := p.names.dropLast }

/-- The place to which a name leads from a directory. -/
def step (p : Place) (name : String) : Place :=
  if name = "" ∨ name = "." then p
  else if name = ".." then p.parent
  else { p with names := p.names ++ [name] }

/-- The place at which a path sets out. -/
def start (path : String) : Place :=
  if path.toList.head? = some '/' then ⟨.root, []⟩ else here

end Place

/-- What is at a place. Every base is a directory. -/
def nodeOf? (t : FileTree) (p : Place) : Option Node :=
  match t.nodes.find? (·.1 = p) with
  | some (_, n) => some n
  | none => if p.names.isEmpty then some .directory else none

/-- The place to which a name leads, if it leads anywhere. -/
def enter? (t : FileTree) (p : Place) (name : String) : Option Place :=
  if t.nodeOf? p = some .directory then some (p.step name) else none

/-- The bytes from which on a path is too long. -/
def pathLimit : Nat := 4096

/-- What is at the end of a path. -/
def nodeAt? (t : FileTree) (path : String) : Option Node := do
  if path.isEmpty || pathLimit ≤ path.utf8ByteSize then none
  else t.nodeOf? (← (names path).foldlM t.enter? (.start path))

/-! ## Building -/

/-- Nothing but directories above. -/
def bare : FileTree := ⟨[]⟩

/-- A node comes to a place. -/
def put (t : FileTree) (p : Place) (n : Node) : FileTree := ⟨(p, n) :: t.nodes⟩

/-- One step on a path. The directory to which it leads is made, unless
there is something. -/
def makeStep (t : FileTree) (p : Place) (name : String) : FileTree × Place :=
  let next := p.step name
  (if (t.nodeOf? next).isSome then t else t.put next .directory, next)

/-- The directories on a path are made as they are missing. -/
def makeWay (t : FileTree) (p : Place) (names : List String) : FileTree × Place :=
  names.foldl (fun (t, p) name => t.makeStep p name) (t, p)

/-- A node comes to the end of a path, the way to which is made. -/
def plant (t : FileTree) (path : String) (n : Node) : FileTree :=
  match n with
  | .directory => (t.makeWay (.start path) (names path)).1
  | _ =>
    let (t, p) := t.makeWay (.start path) (names path).dropLast
    t.put (p.step ((names path).getLastD "")) n

/-- The tree that has certain nodes at the ends of paths. -/
def ofPaths (nodes : List (String × Node)) : FileTree :=
  nodes.foldl (fun t (path, n) => t.plant path n) bare

example : (ofPaths [("a/b/../c", .text "x")]).nodeAt? "a/c" = some (.text "x") := by decide +kernel

example : bare.nodeAt? "a/.." = none ∧ bare.nodeAt? "../.." = some .directory := by
  decide +kernel

end FileTree

end CapabilityBroker
