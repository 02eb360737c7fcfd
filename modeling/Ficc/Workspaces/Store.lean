import Ficc.Foundations.Table
import Ficc.Foundations.Transition
import Ficc.Workspaces.Schema

/-!
# The workspace store

The three tables of workspaces, views and surfaces, and the operations of a principal on them. Each
operation is one transaction, so an operation that raises changes nothing. A workspace belongs to a
project; a view belongs to a user; a surface belongs to both.
-/

namespace Ficc.Workspaces

open Execution (Identity)

/-- The identities and projects of the controller. -/
structure Directory where
  users : List Identity
  projects : List Identity

/-- Who asks. A principal is resolved from an identity and a project that exist. -/
structure Principal (dir : Directory) where
  projectId : Identity
  subjectId : Identity
  project_mem : projectId ∈ dir.projects
  subject_mem : subjectId ∈ dir.users

structure SpaceRow where
  value : Space
  projectId : Identity

structure ViewRow where
  workspaceId : Identity
  value : View
  subjectId : Identity

structure SurfaceRow where
  value : Surface
  projectId : Identity
  subjectId : Identity

structure Store where
  workspaces : Table Identity SpaceRow
  views : Table Identity ViewRow
  surfaces : Table Identity SurfaceRow

def Store.empty : Store := ⟨∅, ∅, ∅⟩

/-- The ids of the instances of a workspace. -/
def Space.instanceIds (value : Space) : List Identity := value.instances.map Instance.id

/-- A layout that is gone. -/
def noLayout : Json := .object []

/-- A view without panels, with a new revision. -/
def View.reset (value : View) : View :=
  { value with layout := noLayout, revision := value.revision + 1 }

/-- The view shows one of the instances. -/
def View.shows (value : View) (instances : List Identity) : Bool :=
  instances.any fun identity => decide (Json.hex 32 identity ∈ panelIds value.layout)

/-- The tiles of other workspaces. -/
def Surface.retained (value : Surface) (workspace : Identity) : List WorkspaceTile :=
  value.tiles.filter fun tile => tile.workspaceId ≠ workspace

/-- A surface after a workspace is deleted. -/
def Surface.retire (value : Surface) (workspace : Identity) : Surface :=
  if (value.retained workspace).length ≠ value.tiles.length then
    { value with
      tiles := value.retained workspace
      layout := noLayout
      revision := value.revision + 1 }
  else value

/-- The instances that a new list of instances leaves out. -/
def Space.removed (value : Space) (instances : List Instance) : List Identity :=
  value.instanceIds.filter fun old => old ∉ instances.map Instance.id

variable {dir : Directory}

namespace Store

def checkRevision (current expected : ℕ) : Except Error Unit :=
  raiseIf (current ≠ expected) (.failure "revision_conflict"
    "The saved value changed. Reload it before saving." 409)

def get (s : Store) (principal : Principal dir) (identity : Identity) : Except Error SpaceRow := do
  let row ← orRaise (s.workspaces.lookup identity)
    (.failure "not_found" "The workspace was not found." 404)
  raiseIf (row.projectId ≠ principal.projectId)
    (.failure "not_found" "The workspace was not found." 404)
  return row

def create (s : Store) (principal : Principal dir) (name : Text) (drawn : Identity) (now : Time) :
    Except Error Store := do
  raiseIf (¬nameAccepted name = true) (.value "The name is invalid.")
  raiseIf (64 ≤ s.workspaces.entries.length)
    (.failure "capacity" "The workspace limit was reached." 409)
  raiseIf (s.workspaces.lookup drawn ≠ none) .integrity
  return { s with
    workspaces := s.workspaces.insert drawn ⟨⟨drawn, name, 0, [], now⟩, principal.projectId⟩ }

/-- The instances of the other workspaces, of every project. -/
def otherIds (s : Store) (identity : Identity) : List Identity :=
  s.workspaces.rows.flatMap fun row =>
    if row.1 = identity then [] else row.2.value.instanceIds

def update (s : Store) (principal : Principal dir) (identity : Identity) (body : WorkspaceUpdate)
    (now : Time) : Except Error Store := do
  raiseIf (¬body.accepted = true) (.value "The workspace is invalid.")
  let row ← s.get principal identity
  checkRevision row.value.revision body.revision
  raiseIf (body.instances.any (fun item => decide (item.id ∈ s.otherIds identity)) = true)
    (.failure "instance_conflict" "A panel identity belongs to another workspace." 409)
  let value : Space := ⟨identity, body.name, row.value.revision + 1, body.instances, now⟩
  let removed := row.value.removed body.instances
  return { s with
    workspaces := s.workspaces.insert identity { row with value := value }
    views := s.views.mapRows fun view =>
      if view.workspaceId = identity ∧ view.value.shows removed then
        { view with value := view.value.reset }
      else view }

def delete (s : Store) (principal : Principal dir) (identity : Identity) (revision : ℕ) :
    Except Error Store := do
  let row ← s.get principal identity
  checkRevision row.value.revision revision
  return {
    workspaces := s.workspaces.erase identity
    views := s.views.discard fun _ view => decide (view.workspaceId = identity)
    surfaces := s.surfaces.mapRows fun surface =>
      { surface with value := surface.value.retire identity } }

/-- The tiles of older surfaces that reserve a view before its first saved layout, with their
surfaces. -/
def reservations (s : Store) (view : Identity) : List (SurfaceRow × WorkspaceTile) :=
  s.surfaces.values.flatMap fun row =>
    (row.value.tiles.filter fun tile => tile.viewId = view).map fun tile => (row, tile)

/-- A reservation of another user or project hides the view, one for another workspace takes it. -/
def checkReservation (principal : Principal dir) (workspace : Identity)
    (reservation : SurfaceRow × WorkspaceTile) : Except Error Unit := do
  raiseIf (reservation.1.subjectId ≠ principal.subjectId ∨
      reservation.1.projectId ≠ principal.projectId)
    (.failure "not_found" "The workspace view was not found." 404)
  raiseIf (reservation.2.workspaceId ≠ workspace)
    (.failure "view_conflict" "This view belongs to another workspace." 409)

/-- A view that is not saved yet. -/
def unsaved (workspace view : Identity) : View := ⟨view, workspace, 0, noLayout⟩

/-- The saved view, for the user it belongs to. -/
def owned (principal : Principal dir) (workspace : Identity) (row : ViewRow) :
    Except Error View := do
  raiseIf (row.subjectId ≠ principal.subjectId)
    (.failure "not_found" "The workspace view was not found." 404)
  raiseIf (row.workspaceId ≠ workspace)
    (.failure "view_conflict" "This view belongs to another workspace." 409)
  return row.value

def view (s : Store) (principal : Principal dir) (workspace view : Identity) :
    Except Error View := do
  let _ ← s.get principal workspace
  match s.views.lookup view with
  | some row => owned principal workspace row
  | none =>
    (s.reservations view).forM (checkReservation principal workspace)
    return unsaved workspace view

/-- Writes the value of a view. A row that is there keeps its workspace and its user. -/
def putView (s : Store) (principal : Principal dir) (workspace view : Identity)
    (value : View) : Store :=
  let row := ((s.views.lookup view).map fun row => { row with value := value }).getD
    ⟨workspace, value, principal.subjectId⟩
  { s with views := s.views.insert view row }

def viewCapacity (s : Store) (view : Identity) : Except Error Unit :=
  raiseIf (s.views.lookup view = none ∧ 256 ≤ s.views.entries.length)
    (.failure "capacity" "The saved view limit was reached. Remove an unused view." 409)

def saveView (s : Store) (principal : Principal dir) (workspace view : Identity)
    (body : ViewUpdate) :
    Except Error Store := do
  raiseIf (¬body.accepted = true) (.value "The view is invalid.")
  let current ← s.view principal workspace view
  checkRevision current.revision body.revision
  let row ← s.get principal workspace
  let allowed := row.value.instanceIds.map (Json.hex 32)
  raiseIf (¬(panelIds body.layout).all (fun panel => decide (panel ∈ allowed)) = true)
    (.failure "invalid_layout" "The layout refers to an unknown panel." 400)
  s.viewCapacity view
  let value := { current with revision := current.revision + 1, layout := body.layout }
  return s.putView principal workspace view value

def surface (s : Store) (principal : Principal dir) (identity : Identity) : Except Error Surface :=
  match s.surfaces.lookup identity with
  | none => .ok ⟨identity, 0, [], noLayout⟩
  | some row => do
    raiseIf (row.projectId ≠ principal.projectId ∨ row.subjectId ≠ principal.subjectId)
      (.failure "not_found" "The workspace surface was not found." 404)
    return row.value

def deleteSurface (s : Store) (principal : Principal dir) (identity : Identity) (revision : ℕ) :
    Except Error Store := do
  let current ← s.surface principal identity
  checkRevision current.revision revision
  return { s with surfaces := s.surfaces.erase identity }

/-- A surface that the principal sees has a tile with the view. -/
def tiled (s : Store) (principal : Principal dir) (view : Identity) : Bool :=
  s.surfaces.values.any fun row =>
    decide (row.projectId = principal.projectId ∧ row.subjectId = principal.subjectId) &&
      row.value.tiles.any fun tile => decide (tile.viewId = view)

def deleteView (s : Store) (principal : Principal dir) (workspace view : Identity) (revision : ℕ) :
    Except Error Store := do
  let current ← s.view principal workspace view
  checkRevision current.revision revision
  raiseIf (s.tiled principal view = true) (.failure "view_in_use"
    "Remove the saved window layout before removing this view." 409)
  return { s with views := s.views.erase view }

/-- A tile reserves its view with an unsaved layout. -/
def reserve (principal : Principal dir) (s : Store) (tile : WorkspaceTile) :
    Except Error Store := do
  let view ← s.view principal tile.workspaceId tile.viewId
  s.viewCapacity tile.viewId
  return if s.views.lookup tile.viewId = none then
    s.putView principal tile.workspaceId tile.viewId view
  else s

/-- Writes the value of a surface. A row that is there keeps its project and its user. -/
def putSurface (s : Store) (principal : Principal dir) (value : Surface) : Store :=
  let row := ((s.surfaces.lookup value.id).map fun row => { row with value := value }).getD
    ⟨value, principal.projectId, principal.subjectId⟩
  { s with surfaces := s.surfaces.insert value.id row }

def saveSurface (s : Store) (principal : Principal dir) (identity : Identity)
    (body : SurfaceUpdate) :
    Except Error Store := do
  raiseIf (¬body.accepted = true) (.value "The surface is invalid.")
  let current ← s.surface principal identity
  checkRevision current.revision body.revision
  let s ← body.tiles.foldlM (reserve principal) s
  let allowed := body.tiles.map fun tile => Json.hex 32 tile.id
  raiseIf (¬(panelIds body.layout).all (fun panel => decide (panel ∈ allowed)) = true)
    (.failure "invalid_layout" "The surface refers to an unknown workspace tile." 400)
  raiseIf (s.surfaces.lookup identity = none ∧ 64 ≤ s.surfaces.entries.length)
    (.failure "capacity" "The saved surface limit was reached." 409)
  return s.putSurface principal ⟨identity, current.revision + 1, body.tiles, body.layout⟩

end Store

/-! ### Runs -/

inductive Operation
  | create (name : Text) (drawn : Identity) (now : Time)
  | update (identity : Identity) (body : WorkspaceUpdate) (now : Time)
  | delete (identity : Identity) (revision : ℕ)
  | saveView (workspace view : Identity) (body : ViewUpdate)
  | deleteView (workspace view : Identity) (revision : ℕ)
  | saveSurface (identity : Identity) (body : SurfaceUpdate)
  | deleteSurface (identity : Identity) (revision : ℕ)

/-- A request: an operation of a principal. -/
structure Request (dir : Directory) where
  principal : Principal dir
  operation : Operation

def perform (s : Store) (request : Request dir) : Except Error Store :=
  match request.operation with
  | .create name drawn now => s.create request.principal name drawn now
  | .update identity body now => s.update request.principal identity body now
  | .delete identity revision => s.delete request.principal identity revision
  | .saveView workspace view body => s.saveView request.principal workspace view body
  | .deleteView workspace view revision => s.deleteView request.principal workspace view revision
  | .saveSurface identity body => s.saveSurface request.principal identity body
  | .deleteSurface identity revision => s.deleteSurface request.principal identity revision

/-- A request that is refused changes nothing. -/
def step (s : Store) (request : Request dir) : Store :=
  match perform s request with
  | .ok s' => s'
  | .error _ => s

end Ficc.Workspaces
