import Ficc.Execution.Spec
import Ficc.Foundations.Json

/-!
# Workspace documents

A workspace has module instances, a view is how one user has laid out their panels, and a surface
tiles views of several workspaces. Requests carry documents of the client, and the schemas bound
them: their nodes, their depth and the bytes of their text. A record is stored as text in which
everything outside of ASCII is escaped.
-/

namespace Ficc.Workspaces

open Execution (Identity Digest)

/-- The characters of a text. -/
abbrev Text : Type := List Char

instance instLawfulBEqText : LawfulBEq Text := inferInstance

/-- The largest revision that a schema accepts. -/
def MAX_REVISION : ℕ := 2 ^ 53 - 1

/-! ### Bounded documents -/

/-- The nodes of a document. -/
def count : Json → ℕ :=
  Json.fold {
    null := 1
    bool := fun _ => 1
    number := fun _ => 1
    string := fun _ => 1
    array := fun items => 1 + items.sum
    object := fun members => 1 + (members.map Prod.snd).sum
  }

/-- The depth of the deepest node. -/
def depth : Json → ℕ :=
  Json.fold {
    null := 0
    bool := fun _ => 0
    number := fun _ => 0
    string := fun _ => 0
    array := fun items => (items.map (· + 1)).foldl max 0
    object := fun members => (members.map fun member => member.2 + 1).foldl max 0
  }

def forbiddenKeys : List Text :=
  ["__proto__".toList, "constructor".toList, "prototype".toList]

/-- Numbers are finite, and the keys of an object are distinct and not forbidden. -/
def permitted : Json → Bool :=
  Json.fold {
    null := true
    bool := fun _ => true
    number := fun value => value.finite
    string := fun _ => true
    array := fun items => items.all id
    object := fun members =>
      decide (members.map Prod.fst).Nodup &&
        members.all fun member => decide (member.1 ∉ forbiddenKeys) && member.2
  }

/-- The document is within the limits. -/
def bounded (value : Json) (maximum : ℕ) : Bool :=
  decide (count value ≤ 8192) && decide (depth value ≤ 24) && permitted value &&
    decide (value.length Json.utf8Cost ≤ maximum)

/-- A name has between one and eighty characters. -/
def nameAccepted (name : Text) : Bool := decide (1 ≤ name.length ∧ name.length ≤ 80)

/-! ### Requests -/

structure Instance where
  id : Identity
  digest : Digest
  title : Text
  state : Json
  targets : List Identity

def ofIdentity (identity : Identity) : Json := .string (Json.hex 32 identity)

def Instance.toJson (item : Instance) : Json :=
  .object [("id".toList, ofIdentity item.id), ("digest".toList, .string (Json.hex 64 item.digest)),
    ("title".toList, .string item.title), ("state".toList, item.state),
    ("targets".toList, .array (item.targets.map ofIdentity))]

def Instance.accepted (item : Instance) : Bool :=
  nameAccepted item.title && item.state.isObject && bounded item.state 65536 &&
    decide (item.targets.length ≤ 64 ∧ item.targets.Nodup)

structure WorkspaceUpdate where
  revision : ℕ
  name : Text
  instances : List Instance

def WorkspaceUpdate.accepted (body : WorkspaceUpdate) : Bool :=
  decide (body.revision ≤ MAX_REVISION) && nameAccepted body.name &&
    decide (body.instances.length ≤ 64) && body.instances.all Instance.accepted &&
    decide (body.instances.map Instance.id).Nodup &&
    bounded (.array (body.instances.map Instance.toJson)) 524288

/-- The panels of a layout. -/
def panels (layout : Json) : Json := (layout.get "panels".toList).getD (.object [])

/-- The ids of the panels of a layout. -/
def panelIds (layout : Json) : List Text := (panels layout).keys

/-- Every panel of a layout passes a check. -/
def everyPanel (layout : Json) (check : Text → Json → Bool) : Bool :=
  match panels layout with
  | .object members => members.all fun member => check member.1 member.2
  | _ => false

/-- A condition of the layout on one of its members. -/
def asks (layout : Json) (key : String) : Bool := (layout.get key.toList).any Json.truthy

/-- A panel of a view shows the module instance with its own id. -/
def viewPanel (identity : Text) (panel : Json) : Bool :=
  let params := (panel.get "params".toList).getD (.object [])
  panel.isObject && (panel.get "id".toList).any (·.isString identity) &&
    (panel.get "contentComponent".toList).any (·.isString "module".toList) &&
    params.isObject && params.keys.all (fun key => decide (key = "instanceId".toList)) &&
    (params.get "instanceId".toList).all (·.isString identity)

structure ViewUpdate where
  revision : ℕ
  layout : Json

def ViewUpdate.accepted (body : ViewUpdate) : Bool :=
  decide (body.revision ≤ MAX_REVISION) && body.layout.isObject && bounded body.layout 262144 &&
    !asks body.layout "popoutGroups" && decide ((panelIds body.layout).length ≤ 64) &&
    everyPanel body.layout viewPanel

structure WorkspaceTile where
  id : Identity
  workspaceId : Identity
  viewId : Identity

def WorkspaceTile.toJson (tile : WorkspaceTile) : Json :=
  .object [("id".toList, ofIdentity tile.id),
    ("workspace_id".toList, ofIdentity tile.workspaceId),
    ("view_id".toList, ofIdentity tile.viewId)]

/-- A panel of a surface shows the workspace tile with its own id. -/
def surfacePanel (identity : Text) (panel : Json) : Bool :=
  panel.isObject && (panel.get "id".toList).any (·.isString identity) &&
    (panel.get "contentComponent".toList).any (·.isString "workspace".toList) &&
    !asks panel "params"

structure SurfaceUpdate where
  revision : ℕ
  tiles : List WorkspaceTile
  layout : Json

def SurfaceUpdate.accepted (body : SurfaceUpdate) : Bool :=
  decide (body.revision ≤ MAX_REVISION) && decide (body.tiles.length ≤ 4) &&
    decide (body.tiles.map WorkspaceTile.id).Nodup &&
    decide (body.tiles.map WorkspaceTile.workspaceId).Nodup &&
    decide (body.tiles.map WorkspaceTile.viewId).Nodup &&
    body.layout.isObject && bounded body.layout 262144 &&
    !asks body.layout "popoutGroups" && !asks body.layout "floatingGroups" &&
    decide ((panelIds body.layout).length ≤ 4) && everyPanel body.layout surfacePanel

/-! ### Records -/

/-- A time, with the text of its number. A double has at most 24 characters. -/
structure Time where
  text : Text
  short : text.length ≤ 24

def Time.toJson (time : Time) : Json := .number ⟨time.text, true, false⟩

structure Space where
  id : Identity
  name : Text
  revision : ℕ
  instances : List Instance
  updatedAt : Time

def Space.toJson (value : Space) : Json :=
  .object [("id".toList, ofIdentity value.id), ("revision".toList, .ofNat value.revision),
    ("name".toList, .string value.name),
    ("instances".toList, .array (value.instances.map Instance.toJson)),
    ("updated_at".toList, value.updatedAt.toJson)]

structure View where
  id : Identity
  workspaceId : Identity
  revision : ℕ
  layout : Json

def View.toJson (value : View) : Json :=
  .object [("id".toList, ofIdentity value.id),
    ("workspace_id".toList, ofIdentity value.workspaceId),
    ("revision".toList, .ofNat value.revision), ("layout".toList, value.layout)]

structure Surface where
  id : Identity
  revision : ℕ
  tiles : List WorkspaceTile
  layout : Json

def Surface.toJson (value : Surface) : Json :=
  .object [("id".toList, ofIdentity value.id), ("revision".toList, .ofNat value.revision),
    ("tiles".toList, .array (value.tiles.map WorkspaceTile.toJson)),
    ("layout".toList, value.layout)]

/-- The characters of the text that a record is stored as. -/
def stored (record : Json) : ℕ := record.length Json.escapedCost

end Ficc.Workspaces
