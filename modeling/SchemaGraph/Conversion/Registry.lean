import SchemaGraph.Value.Basic

set_option autoImplicit false

/-! # Progress of locations

While a document converts, the registry knows which of its locations are being converted, which
failed, and what the others became. A location that is referenced again while it is still being
converted is handed out as a link; `Registry.links` gives the final values of those.
-/

namespace SchemaGraph

/-- How far the conversion of a location is. -/
inductive Progress where
  /-- It has started and not finished yet. -/
  | pending
  /-- It failed; references to the location are bad. -/
  | poisoned
  | done (value : Value)
  deriving Repr, Inhabited

structure Registry where
  states : List (Path × Progress)
  /-- The locations handed out as links, in increasing order. -/
  linked : List Path
  deriving Repr, Inhabited

namespace Registry

def empty : Registry := ⟨[], []⟩

def find? (registry : Registry) (path : Path) : Option Progress := registry.states.lookup path

/-- The states without one location. -/
def without (path : Path) (states : List (Path × Progress)) : List (Path × Progress) :=
  states.filter fun (p, _) => p != path

def set (registry : Registry) (path : Path) (progress : Progress) : Registry :=
  { registry with states := (path, progress) :: without path registry.states }

def start (registry : Registry) (path : Path) : Registry := registry.set path .pending

def finish (registry : Registry) (path : Path) (value : Value) : Registry :=
  registry.set path (.done value)

def poison (registry : Registry) (path : Path) : Registry := registry.set path .poisoned

/-- Forget a location. -/
def remove (registry : Registry) (path : Path) : Registry :=
  { registry with states := without path registry.states }

/-- Put a location among others in increasing order, once. -/
def insertPath (path : Path) : List Path → List Path
  | [] => [path]
  | p :: rest =>
    match path.compare p with
    | .lt => path :: p :: rest
    | .eq => p :: rest
    | .gt => p :: insertPath path rest

/-- Note that a location is handed out as a link. -/
def link (registry : Registry) (path : Path) : Registry :=
  { registry with linked := insertPath path registry.linked }

/-- The final values of the locations handed out as links, in increasing order. -/
def links (registry : Registry) : List (Path × Value) :=
  registry.linked.filterMap fun path =>
    match registry.find? path with
    | some (.done value) => some (path, value)
    | _ => none

end Registry

end SchemaGraph
