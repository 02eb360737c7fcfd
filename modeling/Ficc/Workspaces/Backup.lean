import Ficc.Workspaces.Store

/-!
# Checks of a backup

Before a backup is published, and before it is restored, every workspace record is decoded and put
through the schema of its request again. The text of a record must not be longer than one MiB. The
checks read the tables in order and keep what they have seen.
-/

namespace Ficc.Workspaces.Backup

open Execution (Identity)

/-- The longest text of a record. -/
def LIMIT : ℕ := 1024 * 1024

def document (record : Json) : Except Error Unit :=
  raiseIf (LIMIT < stored record) (.value "The workspace record exceeds its size limit.")

/-- What the records of workspaces have shown: their instances, and all instances together. -/
structure Seen where
  spaces : List (Identity × List Identity)
  instances : List Identity

def checkSpace (seen : Seen) (row : Identity × SpaceRow) : Except Error Seen := do
  let value := row.2.value
  document value.toJson
  raiseIf (value.id ≠ row.1) (.value "The workspace record identity changed.")
  let update : WorkspaceUpdate := ⟨value.revision, value.name, value.instances⟩
  raiseIf (¬update.accepted = true) (.value "The workspace record is invalid.")
  raiseIf (value.instanceIds.any (fun identity => decide (identity ∈ seen.instances)) = true)
    (.value "A module instance belongs to more than one workspace.")
  return ⟨seen.spaces ++ [(row.1, value.instanceIds)], seen.instances ++ value.instanceIds⟩

def checkView (seen : Seen) (views : List (Identity × Identity)) (row : Identity × ViewRow) :
    Except Error (List (Identity × Identity)) := do
  let value := row.2.value
  document value.toJson
  raiseIf (value.id ≠ row.1 ∨ value.workspaceId ≠ row.2.workspaceId)
    (.value "The workspace view has an invalid owner.")
  let instances ← orRaise (seen.spaces.lookup row.2.workspaceId)
    (.value "The workspace view has an invalid owner.")
  let update : ViewUpdate := ⟨value.revision, value.layout⟩
  raiseIf (¬update.accepted = true) (.value "The view record is invalid.")
  let allowed := instances.map (Json.hex 32)
  raiseIf (¬(panelIds value.layout).all (fun panel => decide (panel ∈ allowed)) = true)
    (.value "The workspace view refers to an unknown panel.")
  return views ++ [(row.1, row.2.workspaceId)]

def checkTile (seen : Seen) (views : List (Identity × Identity)) (tile : WorkspaceTile) :
    Except Error Unit :=
  raiseIf (seen.spaces.lookup tile.workspaceId = none ∨
      (views.lookup tile.viewId).getD tile.workspaceId ≠ tile.workspaceId)
    (.value "The workspace surface refers to an invalid view.")

def checkSurface (seen : Seen) (views : List (Identity × Identity))
    (row : Identity × SurfaceRow) : Except Error Unit := do
  let value := row.2.value
  document value.toJson
  raiseIf (value.id ≠ row.1) (.value "The workspace surface identity changed.")
  let update : SurfaceUpdate := ⟨value.revision, value.tiles, value.layout⟩
  raiseIf (¬update.accepted = true) (.value "The surface record is invalid.")
  let allowed := value.tiles.map fun tile => Json.hex 32 tile.id
  raiseIf (¬(panelIds value.layout).all (fun panel => decide (panel ∈ allowed)) = true)
    (.value "The workspace surface refers to an unknown tile.")
  value.tiles.forM (checkTile seen views)

/-- The workspace records are valid. -/
def workspaces (s : Store) : Except Error Unit := do
  let seen ← s.workspaces.rows.foldlM checkSpace ⟨[], []⟩
  let views ← s.views.rows.foldlM (checkView seen) []
  s.surfaces.rows.forM (checkSurface seen views)

/-! ### Ownership -/

def checkViewOwner (dir : Directory) (s : Store) (row : Identity × ViewRow) : Except Error Unit :=
  raiseIf (row.2.subjectId ∉ dir.users ∨ s.workspaces.lookup row.2.workspaceId = none)
    (.value "A workspace view has an invalid owner.")

/-- The workspace and the user of a view: those of its record, or of the first tile with it. -/
abbrev Owners : Type := List (Identity × Identity × Identity)

def checkTileOwner (s : Store) (surface : SurfaceRow) (owners : Owners) (tile : WorkspaceTile) :
    Except Error Owners := do
  let expected := (tile.workspaceId, surface.subjectId)
  let found := (owners.lookup tile.viewId).getD expected
  raiseIf ((s.workspaces.lookup tile.workspaceId).map SpaceRow.projectId ≠ some surface.projectId ∨
      found ≠ expected)
    (.value "A workspace surface crosses a project or user boundary.")
  return if owners.lookup tile.viewId = none then owners ++ [(tile.viewId, expected)] else owners

def checkSurfaceOwner (dir : Directory) (s : Store) (owners : Owners)
    (row : Identity × SurfaceRow) : Except Error Owners := do
  raiseIf (row.2.projectId ∉ dir.projects ∨ row.2.subjectId ∉ dir.users)
    (.value "A workspace surface has an invalid owner.")
  row.2.value.tiles.foldlM (checkTileOwner s row.2) owners

/-- The part of the identity records that is about workspaces. -/
def records (dir : Directory) (s : Store) : Except Error Unit := do
  raiseIf (s.workspaces.values.any (fun row => decide (row.projectId ∉ dir.projects)) = true)
    (.value "A workspace has an invalid project.")
  s.views.rows.forM (checkViewOwner dir s)
  let owners : Owners := s.views.rows.map fun row => (row.1, row.2.workspaceId, row.2.subjectId)
  let _ ← s.surfaces.rows.foldlM (checkSurfaceOwner dir s) owners
  return ()

end Ficc.Workspaces.Backup
