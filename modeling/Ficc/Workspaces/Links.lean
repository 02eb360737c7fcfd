import Ficc.Workspaces.Store

/-!
# Links between workspace records

The three kinds of records refer to each other and are edited on their own. `Linked` says that the
references hold, and `Linked.step` that every request keeps them: an update resets the views that
show a removed instance, a deletion takes the views and the tiles of the workspace along, and a
view that a surface tiles is not deleted.
-/

namespace Ficc.Workspaces

open Execution (Identity)

variable {dir : Directory} {s s' : Store} {principal : Principal dir}

/-- The panels of the view are instances of its workspace. -/
def PanelsKnown (s : Store) (row : ViewRow) : Prop :=
  ∃ space, s.workspaces.lookup row.workspaceId = some space ∧
    ∀ panel ∈ panelIds row.value.layout, panel ∈ space.value.instanceIds.map (Json.hex 32)

/-- The tile refers to a view of its workspace, of the user and in the project of its surface. -/
def Tiled (s : Store) (row : SurfaceRow) (tile : WorkspaceTile) : Prop :=
  ∃ view space, s.views.lookup tile.viewId = some view ∧ view.workspaceId = tile.workspaceId ∧
    view.subjectId = row.subjectId ∧ s.workspaces.lookup tile.workspaceId = some space ∧
    space.projectId = row.projectId

structure SpaceLinked (dir : Directory) (identity : Identity) (row : SpaceRow) : Prop where
  id : row.value.id = identity
  project : row.projectId ∈ dir.projects

structure ViewLinked (dir : Directory) (s : Store) (identity : Identity) (row : ViewRow) :
    Prop where
  id : row.value.id = identity
  workspace : row.value.workspaceId = row.workspaceId
  user : row.subjectId ∈ dir.users
  panels : PanelsKnown s row

structure SurfaceLinked (dir : Directory) (s : Store) (identity : Identity) (row : SurfaceRow) :
    Prop where
  id : row.value.id = identity
  project : row.projectId ∈ dir.projects
  user : row.subjectId ∈ dir.users
  panels : ∀ panel ∈ panelIds row.value.layout,
    panel ∈ row.value.tiles.map fun tile => Json.hex 32 tile.id
  tiles : ∀ tile ∈ row.value.tiles, Tiled s row tile

/-- An instance belongs to one workspace. -/
def InstancesUnique (s : Store) : Prop :=
  ∀ first second row row' instanceId, s.workspaces.lookup first = some row →
    s.workspaces.lookup second = some row' → instanceId ∈ row.value.instanceIds →
    instanceId ∈ row'.value.instanceIds → first = second

/-- The records refer to each other as they should. -/
structure Linked (dir : Directory) (s : Store) : Prop where
  space : ∀ identity row, s.workspaces.lookup identity = some row → SpaceLinked dir identity row
  view : ∀ identity row, s.views.lookup identity = some row → ViewLinked dir s identity row
  surface : ∀ identity row, s.surfaces.lookup identity = some row →
    SurfaceLinked dir s identity row
  unique : InstancesUnique s

theorem Linked.empty (dir : Directory) : Linked dir .empty := by
  constructor <;> intros <;> simp_all [Store.empty, InstancesUnique]

@[simp]
theorem panelIds_noLayout : panelIds noLayout = [] := rfl

/-! ### What the readings return -/

variable {identity view workspace : Identity} {space : SpaceRow} {tile : WorkspaceTile} {now : Time}
  {revision : ℕ}

theorem Store.get_eq_ok {row : SpaceRow} (h : s.get principal identity = .ok row) :
    s.workspaces.lookup identity = some row ∧ row.projectId = principal.projectId := by
  simp only [Store.get, bind_eq_ok, orRaise_eq_ok, raiseIf_eq_ok, pure, Except.pure,
    Except.ok.injEq, not_not] at h
  obtain ⟨found, hfound, -, hproject, rfl⟩ := h
  exact ⟨hfound, hproject⟩

/-- A view that is read is saved for the principal in the workspace, or is not saved. -/
structure ViewRead (s : Store) (principal : Principal dir) (workspace view : Identity)
    (value : View) (space : SpaceRow) : Prop where
  found : s.workspaces.lookup workspace = some space
  project : space.projectId = principal.projectId
  saved : s.views.lookup view = some ⟨workspace, value, principal.subjectId⟩ ∨
    s.views.lookup view = none ∧ value = Store.unsaved workspace view

theorem Store.view_eq_ok {value : View} (h : s.view principal workspace view = .ok value) :
    ∃ space, ViewRead s principal workspace view value space := by
  simp only [Store.view, bind_eq_ok] at h
  obtain ⟨space, hspace, h⟩ := h
  obtain ⟨hlookup, hproject⟩ := Store.get_eq_ok hspace
  refine ⟨space, hlookup, hproject, ?_⟩
  split at h
  next row hrow =>
    simp only [Store.owned, bind_eq_ok, raiseIf_eq_ok, pure, Except.pure, Except.ok.injEq,
      not_not] at h
    obtain ⟨-, hsubject, -, hworkspace, rfl⟩ := h
    left
    rw [hrow, ← hsubject, ← hworkspace]
  next hnone =>
    simp only [bind_eq_ok, pure, Except.pure, Except.ok.injEq] at h
    obtain ⟨-, -, rfl⟩ := h
    exact .inr ⟨hnone, rfl⟩

/-- A view that is read has its own id and workspace. -/
theorem ViewRead.ids (h : Linked dir s) {value : View}
    (hread : ViewRead s principal workspace view value space) :
    value.id = view ∧ value.workspaceId = workspace := by
  obtain hsaved | ⟨-, rfl⟩ := hread.saved
  · have hlinked := h.view view _ hsaved
    exact ⟨hlinked.id, hlinked.workspace⟩
  · exact ⟨rfl, rfl⟩

/-- The views after one is written. -/
theorem ViewRead.lookup_putView {value : View}
    (hread : ViewRead s principal workspace view value space) (value' : View) (other : Identity) :
    (s.putView principal workspace view value').views.lookup other =
      if other = view then some ⟨workspace, value', principal.subjectId⟩
      else s.views.lookup other := by
  unfold Store.putView
  dsimp only
  rw [Table.lookup_insert_eq]
  obtain hsaved | ⟨hnone, -⟩ := hread.saved
  · rw [hsaved]
    rfl
  · rw [hnone]
    rfl

theorem Store.surface_eq_ok {value : Surface} (h : s.surface principal identity = .ok value) :
    s.surfaces.lookup identity = some ⟨value, principal.projectId, principal.subjectId⟩ ∨
      s.surfaces.lookup identity = none ∧ value = ⟨identity, 0, [], noLayout⟩ := by
  unfold Store.surface at h
  split at h
  next hnone => exact .inr ⟨hnone, (Except.ok.inj h).symm⟩
  next row hrow =>
    simp only [bind_eq_ok, raiseIf_eq_ok, pure, Except.pure, Except.ok.injEq, not_or,
      not_not] at h
    obtain ⟨-, ⟨hproject, hsubject⟩, rfl⟩ := h
    left
    rw [hrow, ← hproject, ← hsubject]

/-- The surfaces after one is written. -/
theorem Store.lookup_putSurface {value : Surface} (current : Surface)
    (h : s.surfaces.lookup value.id = some ⟨current, principal.projectId, principal.subjectId⟩ ∨
      s.surfaces.lookup value.id = none) (other : Identity) :
    (s.putSurface principal value).surfaces.lookup other =
      if other = value.id then some ⟨value, principal.projectId, principal.subjectId⟩
      else s.surfaces.lookup other := by
  unfold Store.putSurface
  dsimp only
  rw [Table.lookup_insert_eq]
  obtain hsaved | hnone := h
  · rw [hsaved]
    rfl
  · rw [hnone]
    rfl

/-! ### Frames -/

/-- Views stay linked when their workspaces keep their instances. -/
theorem PanelsKnown.mono {row : ViewRow} (h : PanelsKnown s row)
    (hspace : ∀ identity space, s.workspaces.lookup identity = some space →
      ∃ space', s'.workspaces.lookup identity = some space' ∧
        ∀ instanceId ∈ space.value.instanceIds, instanceId ∈ space'.value.instanceIds) :
    PanelsKnown s' row := by
  obtain ⟨space, hlookup, hpanels⟩ := h
  obtain ⟨space', hlookup', hkeeps⟩ := hspace _ space hlookup
  refine ⟨space', hlookup', fun panel hpanel => ?_⟩
  obtain ⟨instanceId, hmem, rfl⟩ := List.mem_map.mp (hpanels panel hpanel)
  exact List.mem_map_of_mem (hkeeps instanceId hmem)

/-- Tiles stay linked when views keep their workspace and user, and workspaces their project. -/
theorem Tiled.mono {row row' : SurfaceRow} (h : Tiled s row tile)
    (hsubject : row'.subjectId = row.subjectId) (hproject : row'.projectId = row.projectId)
    (hview : ∀ view, s.views.lookup tile.viewId = some view → view.workspaceId = tile.workspaceId → ∃ view', s'.views.lookup tile.viewId = some view' ∧ view'.workspaceId = view.workspaceId ∧ view'.subjectId = view.subjectId)
    (hspace : ∀ space, s.workspaces.lookup tile.workspaceId = some space → ∃ space', s'.workspaces.lookup tile.workspaceId = some space' ∧ space'.projectId = space.projectId)
    :
    Tiled s' row' tile := by
  obtain ⟨view, space, hlookup, hworkspace, huser, hfound, hfits⟩ := h
  obtain ⟨view', hlookup', hworkspace', huser'⟩ := hview view hlookup hworkspace
  obtain ⟨space', hfound', hfits'⟩ := hspace space hfound
  exact ⟨view', space', hlookup', hworkspace'.trans hworkspace,
    (huser'.trans huser).trans hsubject.symm, hfound', (hfits'.trans hfits).trans hproject.symm⟩

/-! ### Operations -/

theorem Linked.create (h : Linked dir s) {name : Text} {drawn : Identity}
    (hcreate : s.create principal name drawn now = .ok s') : Linked dir s' := by
  simp only [Store.create, bind_eq_ok, raiseIf_eq_ok, pure, Except.pure, Except.ok.injEq,
    not_not] at hcreate
  obtain ⟨-, -, -, -, -, hfresh, rfl⟩ := hcreate
  set row : SpaceRow := ⟨⟨drawn, name, 0, [], now⟩, principal.projectId⟩ with hrow
  have hlookup (identity : Identity) : (s.workspaces.insert drawn row).lookup identity =
      if identity = drawn then some row else s.workspaces.lookup identity :=
    Table.lookup_insert_eq s.workspaces drawn identity row
  have hkeeps {identity : Identity} {space : SpaceRow}
      (hspace : s.workspaces.lookup identity = some space) :
      (s.workspaces.insert drawn row).lookup identity = some space := by
    rw [hlookup, if_neg, hspace]
    rintro rfl
    rw [hfresh] at hspace
    cases hspace
  refine ⟨fun identity found hfound => ?_, fun identity found hfound => ?_,
    fun identity found hfound => ?_, ?_⟩
  · rw [hlookup] at hfound
    split at hfound
    next heq =>
      obtain rfl := Option.some.inj hfound
      exact ⟨heq.symm, principal.project_mem⟩
    next => exact h.space identity found hfound
  · have hview := h.view identity found hfound
    exact ⟨hview.id, hview.workspace, hview.user,
      hview.panels.mono fun _ space hspace => ⟨space, hkeeps hspace, fun _ => id⟩⟩
  · have hsurface := h.surface identity found hfound
    exact ⟨hsurface.id, hsurface.project, hsurface.user, hsurface.panels, fun tile htile =>
      (hsurface.tiles tile htile).mono rfl rfl (fun view hview _ => ⟨view, hview, rfl, rfl⟩)
        fun space hspace => ⟨space, hkeeps hspace, rfl⟩⟩
  · -- The new workspace has no instances.
    intro first second space space' instanceId hfirst hsecond hmem hmem'
    rw [hlookup] at hfirst hsecond
    split at hfirst
    next =>
      obtain rfl := Option.some.inj hfirst
      simp [hrow, Space.instanceIds] at hmem
    next =>
      split at hsecond
      next =>
        obtain rfl := Option.some.inj hsecond
        simp [hrow, Space.instanceIds] at hmem'
      next => exact h.unique first second space space' instanceId hfirst hsecond hmem hmem'

/-- The other instances are those of the workspaces with another id. -/
theorem Store.mem_otherIds {instanceId : Identity} :
    instanceId ∈ s.otherIds identity ↔ ∃ other row, s.workspaces.lookup other = some row ∧
      other ≠ identity ∧ instanceId ∈ row.value.instanceIds := by
  simp only [Store.otherIds, List.mem_flatMap]
  constructor
  · rintro ⟨⟨other, row⟩, hrow, hmem⟩
    rw [Table.mem_rows] at hrow
    split at hmem
    next => cases hmem
    next hne => exact ⟨other, row, hrow, hne, hmem⟩
  · rintro ⟨other, row, hrow, hne, hmem⟩
    refine ⟨(other, row), Table.mem_rows.mpr hrow, ?_⟩
    rw [if_neg hne]
    exact hmem

/-- What an update writes. -/
structure Updated (s s' : Store) (identity : Identity) (body : WorkspaceUpdate) (now : Time)
    (row : SpaceRow) : Prop where
  accepted : body.accepted = true
  found : s.workspaces.lookup identity = some row
  revision : row.value.revision = body.revision
  others : ∀ item ∈ body.instances, item.id ∉ s.otherIds identity
  surfaces : s'.surfaces = s.surfaces
  workspaces : ∀ other, s'.workspaces.lookup other =
    if other = identity then
      some ⟨⟨identity, body.name, body.revision + 1, body.instances, now⟩, row.projectId⟩
    else s.workspaces.lookup other
  views : ∀ other, s'.views.lookup other = (s.views.lookup other).map fun view =>
    if view.workspaceId = identity ∧ view.value.shows (row.value.removed body.instances) then
      { view with value := view.value.reset }
    else view

theorem Store.update_eq_ok {body : WorkspaceUpdate}
    (hupdate : s.update principal identity body now = .ok s') :
    ∃ row, Updated s s' identity body now row := by
  simp only [Store.update, Store.checkRevision, bind_eq_ok, raiseIf_eq_ok, pure, Except.pure,
    Except.ok.injEq, not_not] at hupdate
  obtain ⟨-, haccepted, row, hget, -, hrevision, -, hothers, rfl⟩ := hupdate
  obtain ⟨hfound, -⟩ := Store.get_eq_ok hget
  refine ⟨row, haccepted, hfound, hrevision, ?_, rfl, fun other => ?_, fun other => ?_⟩
  · simpa using hothers
  · rw [← hrevision]
    exact Table.lookup_insert_eq s.workspaces identity other _
  · exact Table.lookup_mapRows s.views _ other

/-- A view shows the instances of its panels. -/
theorem View.shows_eq_true {value : View} {instances : List Identity} :
    value.shows instances = true ↔
      ∃ instanceId ∈ instances, Json.hex 32 instanceId ∈ panelIds value.layout := by
  simp [View.shows]

/-- A change of a workspace keeps the links. -/
theorem Linked.update (h : Linked dir s) {body : WorkspaceUpdate} {row : SpaceRow}
    (hupdate : Updated s s' identity body now row) :
    Linked dir s' := by
  have hspace := h.space identity row hupdate.found
  have hproject {other : Identity} {space : SpaceRow}
      (hlookup : s.workspaces.lookup other = some space) :
      ∃ space', s'.workspaces.lookup other = some space' ∧ space'.projectId = space.projectId := by
    rw [hupdate.workspaces]
    split
    next heq =>
      rw [heq, hupdate.found] at hlookup
      obtain rfl := Option.some.inj hlookup
      exact ⟨_, rfl, rfl⟩
    next => exact ⟨space, hlookup, rfl⟩
  refine ⟨fun other found hfound => ?_, fun other found hfound => ?_,
    fun other found hfound => ?_, ?_⟩
  · rw [hupdate.workspaces] at hfound
    split at hfound
    next heq =>
      obtain rfl := Option.some.inj hfound
      exact ⟨heq.symm, hspace.project⟩
    next => exact h.space other found hfound
  · rw [hupdate.views, Option.map_eq_some_iff] at hfound
    obtain ⟨view, hview, rfl⟩ := hfound
    have hlinked := h.view other view hview
    obtain ⟨space, hlookup, hpanels⟩ := hlinked.panels
    by_cases hreset : view.workspaceId = identity ∧
        view.value.shows (row.value.removed body.instances) = true
    · -- A view that shows a removed instance has no panels left.
      rw [if_pos hreset]
      refine ⟨hlinked.id, hlinked.workspace, hlinked.user, ?_⟩
      obtain ⟨space', hspace', -⟩ := hproject hlookup
      exact ⟨space', hspace', by simp [View.reset]⟩
    · rw [if_neg hreset]
      refine ⟨hlinked.id, hlinked.workspace, hlinked.user, ?_⟩
      unfold PanelsKnown
      rw [hupdate.workspaces]
      by_cases heq : view.workspaceId = identity
      · -- None of its panels was removed, so all of them are among the new instances.
        rw [if_pos heq]
        refine ⟨_, rfl, fun panel hpanel => ?_⟩
        rw [heq, hupdate.found] at hlookup
        obtain rfl := Option.some.inj hlookup
        obtain ⟨instanceId, hmem, rfl⟩ := List.mem_map.mp (hpanels panel hpanel)
        refine List.mem_map_of_mem ?_
        by_contra hremoved
        refine hreset ⟨heq, View.shows_eq_true.mpr ⟨instanceId, ?_, hpanel⟩⟩
        exact List.mem_filter.mpr ⟨hmem, decide_eq_true hremoved⟩
      · rw [if_neg heq]
        exact ⟨space, hlookup, hpanels⟩
  · rw [hupdate.surfaces] at hfound
    have hsurface := h.surface other found hfound
    refine ⟨hsurface.id, hsurface.project, hsurface.user, hsurface.panels, fun tile htile =>
      (hsurface.tiles tile htile).mono rfl rfl (fun view hview _ => ?_) fun space => hproject⟩
    rw [hupdate.views, hview, Option.map_some]
    refine ⟨_, rfl, ?_⟩
    split <;> exact ⟨rfl, rfl⟩
  · -- The instances of the update belong to no other workspace.
    have hfree {other : Identity} {space : SpaceRow} {instanceId : Identity}
        (hlookup : s.workspaces.lookup other = some space) (hne : other ≠ identity)
        (hmem : instanceId ∈ space.value.instanceIds) :
        instanceId ∉ body.instances.map Instance.id := by
      intro hnew
      obtain ⟨item, hitem, rfl⟩ := List.mem_map.mp hnew
      exact hupdate.others item hitem (Store.mem_otherIds.mpr ⟨other, space, hlookup, hne, hmem⟩)
    intro first second space space' instanceId hfirst hsecond hmem hmem'
    rw [hupdate.workspaces] at hfirst hsecond
    split at hfirst
    next heq =>
      split at hsecond
      next heq' => exact heq.trans heq'.symm
      next hne =>
        obtain rfl := Option.some.inj hfirst
        exact absurd hmem (hfree hsecond hne hmem')
    next hne =>
      split at hsecond
      next =>
        obtain rfl := Option.some.inj hsecond
        exact absurd hmem' (hfree hfirst hne hmem)
      next => exact h.unique first second space space' instanceId hfirst hsecond hmem hmem'

/-- What a deletion leaves. -/
structure Deleted (s s' : Store) (identity : Identity) : Prop where
  workspaces : ∀ other, s'.workspaces.lookup other =
    if other = identity then none else s.workspaces.lookup other
  views : ∀ other view, s'.views.lookup other = some view ↔
    s.views.lookup other = some view ∧ view.workspaceId ≠ identity
  surfaces : ∀ other, s'.surfaces.lookup other = (s.surfaces.lookup other).map fun surface =>
    { surface with value := surface.value.retire identity }

theorem Store.delete_eq_ok (hdelete : s.delete principal identity revision = .ok s') :
    Deleted s s' identity := by
  simp only [Store.delete, bind_eq_ok, pure, Except.pure, Except.ok.injEq] at hdelete
  obtain ⟨-, -, -, -, rfl⟩ := hdelete
  refine ⟨Table.lookup_erase_eq s.workspaces identity, fun other view => ?_,
    Table.lookup_mapRows s.surfaces _⟩
  show (s.views.discard _).lookup other = some view ↔ _
  rw [Table.lookup_discard, Option.filter_eq_some_iff]
  simp

/-- A surface without the tiles of a workspace. -/
theorem Surface.tiles_retire (value : Surface) (identity : Identity) :
    (value.retire identity).tiles = value.retained identity := by
  unfold Surface.retire
  split
  next => rfl
  next hsame => exact (List.filter_sublist.eq_of_length (not_not.mp hsame)).symm

theorem Surface.mem_retained {value : Surface} :
    tile ∈ value.retained identity ↔ tile ∈ value.tiles ∧ tile.workspaceId ≠ identity := by
  simp [Surface.retained]

theorem Surface.id_retire (value : Surface) (identity : Identity) :
    (value.retire identity).id = value.id := by
  unfold Surface.retire
  split <;> rfl

/-- The layout of a surface that loses tiles is gone. -/
theorem Surface.layout_retire (value : Surface) (identity : Identity) :
    (value.retire identity).layout = noLayout ∨ value.retire identity = value := by
  unfold Surface.retire
  split
  next => exact .inl rfl
  next => exact .inr rfl

/-- So does its removal. -/
theorem Linked.delete (h : Linked dir s) (hdelete : Deleted s s' identity) :
    Linked dir s' := by
  have hkeeps {other : Identity} {space : SpaceRow} (hne : other ≠ identity)
      (hspace : s.workspaces.lookup other = some space) :
      s'.workspaces.lookup other = some space := by
    rw [hdelete.workspaces, if_neg hne, hspace]
  have hold {other : Identity} {space : SpaceRow}
      (hspace : s'.workspaces.lookup other = some space) :
      s.workspaces.lookup other = some space := by
    rw [hdelete.workspaces] at hspace
    split at hspace
    next => cases hspace
    next => exact hspace
  refine ⟨fun other found hfound => h.space other found (hold hfound), fun other found hfound => ?_,
    fun other found hfound => ?_, ?_⟩
  · obtain ⟨hview, hne⟩ := (hdelete.views other found).mp hfound
    have hlinked := h.view other found hview
    obtain ⟨space, hspace, hpanels⟩ := hlinked.panels
    exact ⟨hlinked.id, hlinked.workspace, hlinked.user, space, hkeeps hne hspace, hpanels⟩
  · rw [hdelete.surfaces, Option.map_eq_some_iff] at hfound
    obtain ⟨surface, hsurface, rfl⟩ := hfound
    have hlinked := h.surface other surface hsurface
    refine ⟨(Surface.id_retire _ _).trans hlinked.id, hlinked.project, hlinked.user, ?_, ?_⟩
    · dsimp only
      obtain hlayout | hsame := surface.value.layout_retire identity
      · simp [hlayout]
      · rw [hsame]
        exact hlinked.panels
    · -- A tile that stays is of another workspace, and so is its view.
      intro tile htile
      dsimp only at htile
      rw [Surface.tiles_retire, Surface.mem_retained] at htile
      refine (hlinked.tiles tile htile.1).mono rfl rfl (fun view hview hworkspace => ?_)
        fun space hspace => ⟨space, hkeeps htile.2 hspace, rfl⟩
      refine ⟨view, (hdelete.views _ view).mpr ⟨hview, ?_⟩, rfl, rfl⟩
      rw [hworkspace]
      exact htile.2
  · intro first second space space' instanceId hfirst hsecond
    exact h.unique first second space space' instanceId (hold hfirst) (hold hsecond)

/-- Writing a view of the principal keeps the links when its panels are known. -/
theorem Linked.putView (h : Linked dir s) {value value' : View}
    (hread : ViewRead s principal workspace view value space) (hid : value'.id = view)
    (hworkspace : value'.workspaceId = workspace)
    (hpanels : ∀ panel ∈ panelIds value'.layout, panel ∈ space.value.instanceIds.map (Json.hex 32))
    :
    Linked dir (s.putView principal workspace view value') := by
  have hlookup := hread.lookup_putView value'
  refine ⟨h.space, fun other found hfound => ?_, fun other found hfound => ?_, h.unique⟩
  · rw [hlookup] at hfound
    split at hfound
    next heq =>
      obtain rfl := Option.some.inj hfound
      exact ⟨hid.trans heq.symm, hworkspace, principal.subject_mem, space, hread.found, hpanels⟩
    next =>
      have hlinked := h.view other found hfound
      exact ⟨hlinked.id, hlinked.workspace, hlinked.user, hlinked.panels⟩
  · have hlinked := h.surface other found hfound
    refine ⟨hlinked.id, hlinked.project, hlinked.user, hlinked.panels, fun tile htile =>
      (hlinked.tiles tile htile).mono rfl rfl (fun found' hfound' _ => ?_)
        fun space hspace => ⟨space, hspace, rfl⟩⟩
    rw [hlookup]
    split
    next heq =>
      -- A view that was there keeps its workspace and its user.
      obtain hsaved | ⟨hnone, -⟩ := hread.saved
      · rw [heq, hsaved] at hfound'
        obtain rfl := Option.some.inj hfound'
        exact ⟨_, rfl, rfl, rfl⟩
      · rw [heq, hnone] at hfound'
        cases hfound'
    next => exact ⟨found', hfound', rfl, rfl⟩

/-- What saving a view writes. -/
theorem Store.saveView_eq_ok {body : ViewUpdate}
    (hsave : s.saveView principal workspace view body = .ok s') :
    ∃ current space, ViewRead s principal workspace view current space ∧
      body.accepted = true ∧ current.revision = body.revision ∧
      (∀ panel ∈ panelIds body.layout, panel ∈ space.value.instanceIds.map (Json.hex 32)) ∧
      s' = s.putView principal workspace view
        { current with revision := body.revision + 1, layout := body.layout } := by
  simp only [Store.saveView, Store.checkRevision, bind_eq_ok, raiseIf_eq_ok, pure, Except.pure,
    Except.ok.injEq, not_not] at hsave
  obtain ⟨-, haccepted, current, hcurrent, -, hrevision, row, hget, -, hpanels, -, -, rfl⟩ := hsave
  obtain ⟨space, hread⟩ := Store.view_eq_ok hcurrent
  obtain ⟨hrow, -⟩ := Store.get_eq_ok hget
  obtain rfl : row = space := by
    rw [hread.found] at hrow
    exact (Option.some.inj hrow).symm
  refine ⟨current, row, hread, haccepted, hrevision, ?_, by rw [← hrevision]⟩
  intro panel hpanel
  exact of_decide_eq_true (List.all_eq_true.mp hpanels panel hpanel)

theorem Linked.saveView (h : Linked dir s) {body : ViewUpdate}
    (hsave : s.saveView principal workspace view body = .ok s') : Linked dir s' := by
  obtain ⟨current, space, hread, -, -, hpanels, rfl⟩ := Store.saveView_eq_ok hsave
  obtain ⟨hid, hworkspace⟩ := hread.ids h
  exact h.putView hread hid hworkspace hpanels

theorem Linked.deleteView (h : Linked dir s)
    (hdelete : s.deleteView principal workspace view revision = .ok s') : Linked dir s' := by
  simp only [Store.deleteView, bind_eq_ok, raiseIf_eq_ok, pure, Except.pure,
    Except.ok.injEq] at hdelete
  obtain ⟨current, hcurrent, -, -, -, htiled, rfl⟩ := hdelete
  obtain ⟨space, hread⟩ := Store.view_eq_ok hcurrent
  have hlookup (other : Identity) : (s.views.erase view).lookup other =
      if other = view then none else s.views.lookup other :=
    Table.lookup_erase_eq s.views view other
  refine ⟨h.space, fun other found hfound => ?_, fun other found hfound => ?_, h.unique⟩
  · rw [hlookup] at hfound
    split at hfound
    next => cases hfound
    next =>
      have hlinked := h.view other found hfound
      exact ⟨hlinked.id, hlinked.workspace, hlinked.user, hlinked.panels⟩
  · have hlinked := h.surface other found hfound
    refine ⟨hlinked.id, hlinked.project, hlinked.user, hlinked.panels, fun tile htile => ?_⟩
    refine (hlinked.tiles tile htile).mono rfl rfl (fun found' hfound' hworkspace => ?_)
      fun space hspace => ⟨space, hspace, rfl⟩
    refine ⟨found', ?_, rfl, rfl⟩
    rw [hlookup, if_neg, hfound']
    -- A surface that tiles the view has its user and its project, so the principal sees it.
    rintro heq
    refine htiled ?_
    obtain ⟨row, space', hrow, hrowSpace, huser, hspace', hproject⟩ := hlinked.tiles tile htile
    obtain hsaved | ⟨hnone, -⟩ := hread.saved
    · rw [heq, hsaved] at hrow
      obtain rfl := Option.some.inj hrow
      have hsame : space' = space := by
        rw [← hrowSpace, hread.found] at hspace'
        exact (Option.some.inj hspace').symm
      refine List.any_eq_true.mpr ⟨found, Table.mem_values.mpr ⟨other, hfound⟩, ?_⟩
      refine Bool.and_eq_true_iff.mpr ⟨decide_eq_true ⟨?_, huser.symm⟩,
        List.any_eq_true.mpr ⟨tile, htile, decide_eq_true heq⟩⟩
      rw [← hproject, hsame, hread.project]
    · rw [heq, hnone] at hrow
      cases hrow

theorem Linked.deleteSurface (h : Linked dir s)
    (hdelete : s.deleteSurface principal identity revision = .ok s') : Linked dir s' := by
  simp only [Store.deleteSurface, bind_eq_ok, pure, Except.pure, Except.ok.injEq] at hdelete
  obtain ⟨-, -, -, -, rfl⟩ := hdelete
  refine ⟨h.space, fun other found hfound => ?_, fun other found hfound => ?_, h.unique⟩
  · have hlinked := h.view other found hfound
    exact ⟨hlinked.id, hlinked.workspace, hlinked.user, hlinked.panels⟩
  · have hold : s.surfaces.lookup other = some found := by
      have herased := Table.lookup_erase_eq s.surfaces identity other
      rw [herased] at hfound
      split at hfound
      next => cases hfound
      next => exact hfound
    have hlinked := h.surface other found hold
    exact ⟨hlinked.id, hlinked.project, hlinked.user, hlinked.panels, hlinked.tiles⟩

/-- What the tiles of a surface have done to the store: their views are there, and the views that
were not there before have no layout. -/
structure Reserved (s : Store) (principal : Principal dir) (done : List WorkspaceTile)
    (s' : Store) : Prop where
  workspaces : s'.workspaces = s.workspaces
  surfaces : s'.surfaces = s.surfaces
  kept : ∀ other row, s.views.lookup other = some row → s'.views.lookup other = some row
  new : ∀ other row, s'.views.lookup other = some row →
    s.views.lookup other = some row ∨ row.value = Store.unsaved row.workspaceId other
  tiled : ∀ tile ∈ done, ∀ value : Surface,
    Tiled s' ⟨value, principal.projectId, principal.subjectId⟩ tile

theorem Reserved.refl (s : Store) (principal : Principal dir) : Reserved s principal [] s where
  workspaces := rfl
  surfaces := rfl
  kept _ _ h := h
  new _ _ h := .inl h
  tiled tile h := by cases h

theorem Reserved.next {middle : Store} {done : List WorkspaceTile}
    (h : Reserved s principal done middle) (hlinked : Linked dir middle)
    (hreserve : Store.reserve principal middle tile = .ok s') :
    Reserved s principal (done ++ [tile]) s' ∧ Linked dir s' := by
  simp only [Store.reserve, bind_eq_ok, pure, Except.pure, Except.ok.injEq] at hreserve
  obtain ⟨value, hview, -, -, rfl⟩ := hreserve
  obtain ⟨space, hread⟩ := Store.view_eq_ok hview
  obtain ⟨hid, hworkspace⟩ := hread.ids hlinked
  obtain hsaved | ⟨hnone, hunsaved⟩ := hread.saved
  · -- The view is saved, and nothing changes.
    have hsome : middle.views.lookup tile.viewId ≠ none := by
      rw [hsaved]
      simp
    rw [if_neg hsome]
    refine ⟨⟨h.workspaces, h.surfaces, h.kept, h.new, fun other hmem current => ?_⟩, hlinked⟩
    obtain hdone | htile := List.mem_append.mp hmem
    · exact h.tiled other hdone current
    · obtain rfl := List.mem_singleton.mp htile
      exact ⟨_, space, hsaved, rfl, rfl, hread.found, hread.project⟩
  · rw [if_pos hnone]
    have hlookup := hread.lookup_putView value
    refine ⟨⟨h.workspaces, h.surfaces, fun other row hrow => ?_, fun other row hrow => ?_,
      fun other hmem current => ?_⟩, hlinked.putView hread hid hworkspace ?_⟩
    · rw [hlookup, if_neg]
      · exact h.kept other row hrow
      · rintro rfl
        have hmiddle := h.kept _ row hrow
        rw [hnone] at hmiddle
        cases hmiddle
    · rw [hlookup] at hrow
      split at hrow
      next heq =>
        obtain rfl := Option.some.inj hrow
        exact .inr (heq ▸ hunsaved)
      next => exact h.new other row hrow
    · obtain hdone | htile := List.mem_append.mp hmem
      · refine (h.tiled other hdone current).mono rfl rfl (fun view hview' _ => ?_)
          fun space hspace => ⟨space, hspace, rfl⟩
        refine ⟨view, ?_, rfl, rfl⟩
        rw [hlookup, if_neg, hview']
        intro heq
        rw [heq, hnone] at hview'
        cases hview'
      · obtain rfl := List.mem_singleton.mp htile
        refine ⟨⟨other.workspaceId, value, principal.subjectId⟩, space, ?_, rfl, rfl, hread.found,
          hread.project⟩
        rw [hlookup, if_pos rfl]
    · rw [hunsaved]
      simp [Store.unsaved]

/-- What saving a surface writes. -/
structure SurfaceSaved (s s' : Store) (principal : Principal dir) (identity : Identity)
    (body : SurfaceUpdate) (reserved : Store) : Prop where
  accepted : body.accepted = true
  panels : ∀ panel ∈ panelIds body.layout, panel ∈ body.tiles.map fun tile => Json.hex 32 tile.id
  tiles : Reserved s principal body.tiles reserved
  linked : Linked dir reserved
  workspaces : s'.workspaces = reserved.workspaces
  views : s'.views = reserved.views
  surfaces : ∀ other, s'.surfaces.lookup other =
    if other = identity then
      some ⟨⟨identity, body.revision + 1, body.tiles, body.layout⟩, principal.projectId,
        principal.subjectId⟩
    else s.surfaces.lookup other

theorem Linked.saveSurface_eq_ok (h : Linked dir s) {body : SurfaceUpdate}
    (hsave : s.saveSurface principal identity body = .ok s') :
    ∃ reserved, SurfaceSaved s s' principal identity body reserved := by
  simp only [Store.saveSurface, Store.checkRevision, bind_eq_ok, raiseIf_eq_ok, pure, Except.pure,
    Except.ok.injEq, not_not] at hsave
  obtain ⟨-, haccepted, current, hcurrent, -, hrevision, reserved, hfold, -, hpanels, -, -, rfl⟩ :=
    hsave
  -- The loop over the tiles keeps what the tiles before have reserved.
  have hloop : Reserved s principal ([] ++ body.tiles) reserved ∧ Linked dir reserved := by
    refine foldlM_ok_induction
      (I := fun done middle => Reserved s principal done middle ∧ Linked dir middle) ?_
      ⟨.refl s principal, h⟩ hfold
    intro done middle tile next hI hreserve
    exact hI.1.next hI.2 hreserve
  refine ⟨reserved, haccepted, fun panel hpanel => ?_, hloop.1, hloop.2, rfl, rfl, fun other => ?_⟩
  · exact of_decide_eq_true (List.all_eq_true.mp hpanels panel hpanel)
  · have hbefore := Store.surface_eq_ok hcurrent
    rw [← hloop.1.surfaces] at hbefore ⊢
    rw [← hrevision]
    exact Store.lookup_putSurface current (hbefore.imp_right And.left) other

/-- So does a saved surface. -/
theorem Linked.saveSurface {body : SurfaceUpdate} {reserved : Store}
    (hsave : SurfaceSaved s s' principal identity body reserved) : Linked dir s' := by
  have h := hsave.linked
  refine ⟨?_, fun other found hfound => ?_, fun other found hfound => ?_, ?_⟩
  · rw [hsave.workspaces]
    exact h.space
  · rw [hsave.views] at hfound
    have hlinked := h.view other found hfound
    refine ⟨hlinked.id, hlinked.workspace, hlinked.user, ?_⟩
    unfold PanelsKnown
    rw [hsave.workspaces]
    exact hlinked.panels
  · have htiled {row : SurfaceRow} {tile : WorkspaceTile} (ht : Tiled reserved row tile) :
        Tiled s' row tile := by
      unfold Tiled
      rw [hsave.views, hsave.workspaces]
      exact ht
    rw [hsave.surfaces] at hfound
    split at hfound
    next heq =>
      obtain rfl := Option.some.inj hfound
      exact ⟨heq.symm, principal.project_mem, principal.subject_mem, hsave.panels,
        fun tile htile => htiled (hsave.tiles.tiled tile htile _)⟩
    next =>
      rw [← hsave.tiles.surfaces] at hfound
      have hlinked := h.surface other found hfound
      exact ⟨hlinked.id, hlinked.project, hlinked.user, hlinked.panels,
        fun tile htile => htiled (hlinked.tiles tile htile)⟩
  · unfold InstancesUnique
    rw [hsave.workspaces]
    exact h.unique

/-- Every request keeps the links. -/
theorem Linked.step (h : Linked dir s) (request : Request dir) :
    Linked dir (Workspaces.step s request) := by
  unfold Workspaces.step
  split
  next s' hperform =>
    unfold perform at hperform
    split at hperform
    next => exact h.create hperform
    next =>
      obtain ⟨row, hupdate⟩ := Store.update_eq_ok hperform
      exact h.update hupdate
    next => exact h.delete (Store.delete_eq_ok hperform)
    next => exact h.saveView hperform
    next => exact h.deleteView hperform
    next =>
      obtain ⟨reserved, hsave⟩ := h.saveSurface_eq_ok hperform
      exact Linked.saveSurface hsave
    next => exact h.deleteSurface hperform
  next => exact h

end Ficc.Workspaces
