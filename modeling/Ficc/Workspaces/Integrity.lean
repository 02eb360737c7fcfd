import Ficc.Workspaces.Backup
import Ficc.Workspaces.Links

/-!
# Workspace integrity

In every run, the records refer to each other as they should. They pass the checks of a backup in
every run whose requests are careful: the request is short as escaped text, and no record that it
rewrites is at the last revision. The schemas do not ask for that. They bound the bytes of a
document, and a `DEL` is one byte there and six characters in the stored record.
-/

namespace Ficc.Workspaces

open Execution (Identity)
open Backup (LIMIT)

variable {dir : Directory} {s s' : Store}

/-! ### Records that a backup takes -/

/-- The record passes its schema and is short enough. -/
def Space.Kept (value : Space) : Prop :=
  (⟨value.revision, value.name, value.instances⟩ : WorkspaceUpdate).accepted = true ∧
    stored value.toJson ≤ LIMIT

def View.Kept (value : View) : Prop :=
  (⟨value.revision, value.layout⟩ : ViewUpdate).accepted = true ∧ stored value.toJson ≤ LIMIT

def Surface.Kept (value : Surface) : Prop :=
  (⟨value.revision, value.tiles, value.layout⟩ : SurfaceUpdate).accepted = true ∧
    stored value.toJson ≤ LIMIT

/-- Every record is one that a backup takes. -/
structure Kept (s : Store) : Prop where
  space : ∀ identity row, s.workspaces.lookup identity = some row → row.value.Kept
  view : ∀ identity row, s.views.lookup identity = some row → row.value.Kept
  surface : ∀ identity row, s.surfaces.lookup identity = some row → row.value.Kept

theorem Kept.empty : Kept .empty := by
  constructor <;> intro identity row h <;> simp [Store.empty] at h

/-! ### Lengths of small records -/

theorem quoted_le_twelve (text : Text) :
    Json.quoted Json.escapedCost text ≤ 2 + text.length * 12 :=
  Json.quoted_le fun c _ => Json.escapedCost_le c

theorem length_ofIdentity (identity : Identity) :
    (ofIdentity identity).length Json.escapedCost ≤ 34 := by
  rw [ofIdentity, Json.length_string]
  exact Json.quoted_hex_le 32 identity

theorem length_ofNat {n : ℕ} (h : n ≤ MAX_REVISION) :
    (Json.ofNat n).length Json.escapedCost ≤ 16 := by
  rw [Json.ofNat, Json.length_number]
  refine Json.length_decimal_le (by omega) (h.trans_lt ?_)
  decide

theorem length_noLayout : noLayout.length Json.escapedCost = 2 := by
  rw [noLayout, Json.length_object]
  rfl

/-- The text of an object with short keys is not much longer than its members. -/
theorem stored_object {members : List (Text × Json)}
    (hkeys : (members.all fun member => decide (member.1.length ≤ 12)) = true) :
    stored (.object members) ≤ 2 +
      (members.map fun member => 150 + member.2.length Json.escapedCost).sum := by
  have hsum : 2 * members.length + (members.map fun member =>
      Json.quoted Json.escapedCost member.1 + 2 + member.2.length Json.escapedCost).sum ≤
      (members.map fun member => 150 + member.2.length Json.escapedCost).sum := by
    induction members with
    | nil => simp
    | cons member rest ih =>
      simp only [List.all_cons, Bool.and_eq_true, decide_eq_true_eq] at hkeys
      have hkey := quoted_le_twelve member.1
      have hrest := ih hkeys.2
      have hshort := hkeys.1
      simp only [List.length_cons, List.map_cons, List.sum_cons]
      omega
  rw [stored, Json.length_object]
  simp only [Json.enclosed, List.length_map]
  have hseparators : 2 + 2 * (members.length - 1) ≤ 2 + 2 * members.length := by omega
  refine (Nat.add_le_add_right hseparators _).trans ?_
  rw [Nat.add_assoc]
  exact Nat.add_le_add_left hsum 2

theorem Space.kept_new {name : Text} (hname : nameAccepted name = true) (drawn : Identity)
    (now : Time) : Space.Kept ⟨drawn, name, 0, [], now⟩ := by
  constructor
  · simp only [WorkspaceUpdate.accepted, hname]
    rfl
  · refine (stored_object rfl).trans ?_
    have hlength : name.length ≤ 80 := (of_decide_eq_true hname).2
    have hid := length_ofIdentity drawn
    have hrevision : (Json.ofNat 0).length Json.escapedCost ≤ 16 := length_ofNat (Nat.zero_le _)
    have hquoted := quoted_le_twelve name
    have hnow : now.toJson.length Json.escapedCost ≤ 24 := by
      rw [Time.toJson, Json.length_number]
      exact now.short
    have hitems : (Json.array []).length Json.escapedCost = 2 := by
      rw [Json.length_array]
      rfl
    simp only [List.map_cons, List.map_nil, List.sum_cons, List.sum_nil,
      Json.length_string, hitems, LIMIT]
    omega

/-- A view without panels is always taken. -/
theorem View.kept_noLayout (identity workspace : Identity) {revision : ℕ}
    (h : revision ≤ MAX_REVISION) : View.Kept ⟨identity, workspace, revision, noLayout⟩ := by
  constructor
  · simp only [ViewUpdate.accepted, decide_eq_true h]
    rfl
  · refine (stored_object rfl).trans ?_
    have hid := length_ofIdentity identity
    have hworkspace := length_ofIdentity workspace
    have hrevision := length_ofNat h
    simp only [List.map_cons, List.map_nil, List.sum_cons, List.sum_nil,
      length_noLayout, LIMIT]
    omega

/-- A tile is short. -/
theorem length_tile (tile : WorkspaceTile) : tile.toJson.length Json.escapedCost ≤ 560 := by
  refine (stored_object rfl).trans ?_
  have hid := length_ofIdentity tile.id
  have hworkspace := length_ofIdentity tile.workspaceId
  have hview := length_ofIdentity tile.viewId
  simp only [List.map_cons, List.map_nil, List.sum_cons, List.sum_nil]
  omega

/-- A surface without a layout is taken with fewer tiles. -/
theorem Surface.kept_noLayout (identity : Identity) {revision : ℕ} (h : revision ≤ MAX_REVISION)
    {tiles fewer : List WorkspaceTile} (hsub : fewer.Sublist tiles) {layout : Json}
    (haccepted : (⟨revision, tiles, layout⟩ : SurfaceUpdate).accepted = true) :
    Surface.Kept ⟨identity, revision, fewer, noLayout⟩ := by
  simp only [SurfaceUpdate.accepted, Bool.and_eq_true, decide_eq_true_eq] at haccepted
  obtain ⟨⟨⟨⟨⟨⟨⟨⟨⟨⟨-, hfour⟩, hids⟩, hworkspaces⟩, hviews⟩, -⟩, -⟩, -⟩, -⟩, -⟩, -⟩ := haccepted
  have hlength : fewer.length ≤ 4 := hsub.length_le.trans hfour
  constructor
  · simp only [SurfaceUpdate.accepted, decide_eq_true h, decide_eq_true hlength,
      decide_eq_true ((hsub.map WorkspaceTile.id).nodup hids),
      decide_eq_true ((hsub.map WorkspaceTile.workspaceId).nodup hworkspaces),
      decide_eq_true ((hsub.map WorkspaceTile.viewId).nodup hviews)]
    rfl
  · refine (stored_object rfl).trans ?_
    have hid := length_ofIdentity identity
    have hrevision := length_ofNat h
    have htiles : (Json.array (fewer.map WorkspaceTile.toJson)).length Json.escapedCost ≤
        2 + 2 * 4 + 4 * 560 := by
      rw [Json.length_array, Json.enclosed, List.map_map]
      have hsum : (fewer.map (Json.length Json.escapedCost ∘ WorkspaceTile.toJson)).sum ≤
          fewer.length * 560 := Json.sum_map_le fun tile _ => length_tile tile
      rw [List.length_map]
      have hmul : fewer.length * 560 ≤ 4 * 560 := Nat.mul_le_mul_right 560 hlength
      omega
    simp only [List.map_cons, List.map_nil, List.sum_cons, List.sum_nil,
      length_noLayout, LIMIT]
    omega

/-! ### Careful requests -/

/-- The record of a request is short as escaped text, and no record that the request rewrites is at
the last revision. -/
def Careful (s : Store) (request : Request dir) : Prop :=
  match request.operation with
  | .create _ _ _ => True
  | .update identity body now =>
    body.revision < MAX_REVISION ∧
      stored (Space.toJson ⟨identity, body.name, body.revision + 1, body.instances, now⟩) ≤ LIMIT ∧
      ∀ space, s.workspaces.lookup identity = some space → ∀ other view,
        s.views.lookup other = some view → view.workspaceId = identity →
        view.value.shows (space.value.removed body.instances) = true →
        view.value.revision < MAX_REVISION
  | .delete identity _ => ∀ other surface, s.surfaces.lookup other = some surface →
      (∃ tile ∈ surface.value.tiles, tile.workspaceId = identity) →
      surface.value.revision < MAX_REVISION
  | .saveView workspace view body =>
    body.revision < MAX_REVISION ∧
      stored (View.toJson ⟨view, workspace, body.revision + 1, body.layout⟩) ≤ LIMIT
  | .deleteView _ _ _ => True
  | .saveSurface identity body =>
    body.revision < MAX_REVISION ∧
      stored (Surface.toJson ⟨identity, body.revision + 1, body.tiles, body.layout⟩) ≤ LIMIT
  | .deleteSurface _ _ => True

/-- A body that is accepted is accepted with the next revision. -/
theorem WorkspaceUpdate.accepted_next {body : WorkspaceUpdate} (h : body.accepted = true)
    (hrevision : body.revision < MAX_REVISION) :
    ({ body with revision := body.revision + 1 } : WorkspaceUpdate).accepted = true := by
  simp only [WorkspaceUpdate.accepted, Bool.and_eq_true, decide_eq_true_eq] at h ⊢
  obtain ⟨⟨⟨⟨⟨-, hname⟩, hlength⟩, hitems⟩, hids⟩, hbounded⟩ := h
  exact ⟨⟨⟨⟨⟨hrevision, hname⟩, hlength⟩, hitems⟩, hids⟩, hbounded⟩

theorem ViewUpdate.accepted_next {body : ViewUpdate} (h : body.accepted = true)
    (hrevision : body.revision < MAX_REVISION) :
    ({ body with revision := body.revision + 1 } : ViewUpdate).accepted = true := by
  simp only [ViewUpdate.accepted, Bool.and_eq_true, decide_eq_true_eq] at h ⊢
  obtain ⟨⟨⟨⟨⟨-, hobject⟩, hbounded⟩, hpopout⟩, hlength⟩, hpanels⟩ := h
  exact ⟨⟨⟨⟨⟨hrevision, hobject⟩, hbounded⟩, hpopout⟩, hlength⟩, hpanels⟩

theorem SurfaceUpdate.accepted_next {body : SurfaceUpdate} (h : body.accepted = true)
    (hrevision : body.revision < MAX_REVISION) :
    ({ body with revision := body.revision + 1 } : SurfaceUpdate).accepted = true := by
  simp only [SurfaceUpdate.accepted, Bool.and_eq_true, decide_eq_true_eq] at h ⊢
  obtain ⟨⟨⟨⟨⟨⟨⟨⟨⟨⟨-, hfour⟩, hids⟩, hworkspaces⟩, hviews⟩, hobject⟩, hbounded⟩, hpopout⟩,
    hfloating⟩, hlength⟩, hpanels⟩ := h
  exact ⟨⟨⟨⟨⟨⟨⟨⟨⟨⟨hrevision, hfour⟩, hids⟩, hworkspaces⟩, hviews⟩, hobject⟩, hbounded⟩, hpopout⟩,
    hfloating⟩, hlength⟩, hpanels⟩

/-- A surface that loses the tiles of a workspace is still taken. -/
theorem Surface.Kept.retire {value : Surface} (h : value.Kept) {identity : Identity}
    (hrevision : (∃ tile ∈ value.tiles, tile.workspaceId = identity) →
      value.revision < MAX_REVISION) : (value.retire identity).Kept := by
  unfold Surface.retire
  split
  next hne =>
    -- A tile was lost, so one of the tiles is of the workspace.
    have hlost : ∃ tile ∈ value.tiles, tile.workspaceId = identity := by
      by_contra hnone
      refine hne (congrArg List.length (List.filter_eq_self.mpr fun tile htile => ?_))
      exact decide_eq_true fun heq => hnone ⟨tile, htile, heq⟩
    have haccepted := SurfaceUpdate.accepted_next h.1 (hrevision hlost)
    exact Surface.kept_noLayout value.id (hrevision hlost) List.filter_sublist haccepted
  next => exact h

theorem Kept.update (h : Kept s) {identity : Identity} {body : WorkspaceUpdate} {now : Time}
    {row : SpaceRow} (hupdate : Updated s s' identity body now row)
    (hrevision : body.revision < MAX_REVISION)
    (hstored : stored (Space.toJson
      ⟨identity, body.name, body.revision + 1, body.instances, now⟩) ≤ LIMIT)
    (hviews : ∀ other view, s.views.lookup other = some view → view.workspaceId = identity →
      view.value.shows (row.value.removed body.instances) = true →
      view.value.revision < MAX_REVISION) : Kept s' := by
  refine ⟨fun other found hfound => ?_, fun other found hfound => ?_, ?_⟩
  · rw [hupdate.workspaces] at hfound
    split at hfound
    next =>
      obtain rfl := Option.some.inj hfound
      exact ⟨WorkspaceUpdate.accepted_next hupdate.accepted hrevision, hstored⟩
    next => exact h.space other found hfound
  · rw [hupdate.views, Option.map_eq_some_iff] at hfound
    obtain ⟨view, hview, rfl⟩ := hfound
    split
    next hreset => exact View.kept_noLayout _ _ (hviews other view hview hreset.1 hreset.2)
    next => exact h.view other view hview
  · rw [hupdate.surfaces]
    exact h.surface

theorem Kept.delete (h : Kept s) {identity : Identity} (hdelete : Deleted s s' identity)
    (hsurfaces : ∀ other surface, s.surfaces.lookup other = some surface →
      (∃ tile ∈ surface.value.tiles, tile.workspaceId = identity) →
      surface.value.revision < MAX_REVISION) : Kept s' := by
  refine ⟨fun other found hfound => ?_, fun other found hfound => ?_,
    fun other found hfound => ?_⟩
  · rw [hdelete.workspaces] at hfound
    split at hfound
    next => cases hfound
    next => exact h.space other found hfound
  · exact h.view other found ((hdelete.views other found).mp hfound).1
  · rw [hdelete.surfaces, Option.map_eq_some_iff] at hfound
    obtain ⟨surface, hsurface, rfl⟩ := hfound
    exact (h.surface other surface hsurface).retire (hsurfaces other surface hsurface)

/-- Every careful request keeps the records such that a backup takes them. -/
theorem Kept.step (h : Kept s) (hlinked : Linked dir s) {request : Request dir}
    (hcareful : Careful s request) : Kept (Workspaces.step s request) := by
  obtain ⟨principal, operation⟩ := request
  unfold Workspaces.step
  split
  next s' hperform =>
    cases operation with
    | create name drawn now =>
      simp only [perform, Store.create, bind_eq_ok, raiseIf_eq_ok, pure, Except.pure,
        Except.ok.injEq, not_not] at hperform
      obtain ⟨-, hname, -, -, -, -, rfl⟩ := hperform
      refine ⟨fun other found hfound => ?_, h.view, h.surface⟩
      have hlookup := Table.lookup_insert_eq s.workspaces drawn other
        ⟨⟨drawn, name, 0, [], now⟩, principal.projectId⟩
      rw [hlookup] at hfound
      split at hfound
      next =>
        obtain rfl := Option.some.inj hfound
        exact Space.kept_new hname drawn now
      next => exact h.space other found hfound
    | update identity body now =>
      obtain ⟨row, hupdate⟩ := Store.update_eq_ok hperform
      exact h.update hupdate hcareful.1 hcareful.2.1 (hcareful.2.2 row hupdate.found)
    | delete identity revision => exact h.delete (Store.delete_eq_ok hperform) hcareful
    | saveView workspace view body =>
      obtain ⟨current, space, hread, haccepted, -, -, rfl⟩ := Store.saveView_eq_ok hperform
      obtain ⟨hid, hworkspace⟩ := hread.ids hlinked
      refine ⟨h.space, fun other found hfound => ?_, h.surface⟩
      rw [hread.lookup_putView] at hfound
      split at hfound
      next =>
        obtain rfl := Option.some.inj hfound
        refine ⟨ViewUpdate.accepted_next haccepted hcareful.1, ?_⟩
        have hstored := hcareful.2
        rw [← hid, ← hworkspace] at hstored
        exact hstored
      next => exact h.view other found hfound
    | deleteView workspace view revision =>
      simp only [perform, Store.deleteView, bind_eq_ok, pure, Except.pure, Except.ok.injEq]
        at hperform
      obtain ⟨-, -, -, -, -, -, rfl⟩ := hperform
      refine ⟨h.space, fun other found hfound => ?_, h.surface⟩
      have hlookup := Table.lookup_erase_eq s.views view other
      rw [hlookup] at hfound
      split at hfound
      next => cases hfound
      next => exact h.view other found hfound
    | saveSurface identity body =>
      obtain ⟨reserved, hsave⟩ := hlinked.saveSurface_eq_ok hperform
      refine ⟨?_, fun other found hfound => ?_, fun other found hfound => ?_⟩
      · rw [hsave.workspaces, hsave.tiles.workspaces]
        exact h.space
      · rw [hsave.views] at hfound
        obtain hold | hunsaved := hsave.tiles.new other found hfound
        · exact h.view other found hold
        · rw [hunsaved]
          exact View.kept_noLayout other found.workspaceId (Nat.zero_le _)
      · rw [hsave.surfaces] at hfound
        split at hfound
        next =>
          obtain rfl := Option.some.inj hfound
          exact ⟨SurfaceUpdate.accepted_next hsave.accepted hcareful.1, hcareful.2⟩
        next => exact h.surface other found hfound
    | deleteSurface identity revision =>
      simp only [perform, Store.deleteSurface, bind_eq_ok, pure, Except.pure, Except.ok.injEq]
        at hperform
      obtain ⟨-, -, -, -, rfl⟩ := hperform
      refine ⟨h.space, h.view, fun other found hfound => ?_⟩
      have hlookup := Table.lookup_erase_eq s.surfaces identity other
      rw [hlookup] at hfound
      split at hfound
      next => cases hfound
      next => exact h.surface other found hfound
  next => exact h

/-! ### The checks of a backup -/

namespace Backup

theorem document_eq_ok {record : Json} (h : stored record ≤ LIMIT) :
    document record = .ok () := by
  rw [document, raiseIf_eq_ok]
  omega

/-- What the records of workspaces have shown after some of them. -/
def seenIn (rows : List (Identity × SpaceRow)) : Seen :=
  ⟨rows.map fun row => (row.1, row.2.value.instanceIds),
    rows.flatMap fun row => row.2.value.instanceIds⟩

theorem foldlM_checkSpace (hlinked : Linked dir s) (hkept : Kept s) :
    s.workspaces.rows.foldlM checkSpace ⟨[], []⟩ = .ok (seenIn s.workspaces.rows) := by
  refine foldlM_eq_ok seenIn fun done row rest hrows => ?_
  have hrow : s.workspaces.lookup row.1 = some row.2 := Table.mem_rows.mp (by rw [hrows]; simp)
  obtain ⟨haccepted, hstored⟩ := hkept.space row.1 row.2 hrow
  have hid := (hlinked.space row.1 row.2 hrow).id
  -- The workspaces read before have other keys, so they have other instances.
  have hfree : ¬(row.2.value.instanceIds.any fun identity =>
      decide (identity ∈ (seenIn done).instances)) = true := by
    rw [List.any_eq_true]
    rintro ⟨instanceId, hmem, hseen⟩
    obtain ⟨other, hother, hmem'⟩ := List.mem_flatMap.mp (of_decide_eq_true hseen)
    have hother' : s.workspaces.lookup other.1 = some other.2 :=
      Table.mem_rows.mp (by rw [hrows]; simp [hother])
    have hkeys := Table.nodup_map_fst_rows s.workspaces
    rw [hrows, List.map_append, List.map_cons, List.nodup_append] at hkeys
    refine hkeys.2.2 other.1 (List.mem_map_of_mem hother) row.1 List.mem_cons_self ?_
    exact hlinked.unique _ _ _ _ instanceId hother' hrow hmem' hmem
  have hcheck : checkSpace (seenIn done) row = .ok ⟨(seenIn done).spaces ++
      [(row.1, row.2.value.instanceIds)], (seenIn done).instances ++ row.2.value.instanceIds⟩ := by
    simp only [checkSpace, document_eq_ok hstored, bind_eq_ok, raiseIf_eq_ok, pure, Except.pure]
    exact ⟨(), trivial, (), not_not.mpr hid, (), not_not.mpr haccepted, (), hfree, trivial⟩
  rw [hcheck]
  simp [seenIn]

theorem lookup_seenIn (s : Store) (identity : Identity) :
    (seenIn s.workspaces.rows).spaces.lookup identity =
      (s.workspaces.lookup identity).map fun row => row.value.instanceIds :=
  Table.lookup_map_rows s.workspaces (fun row => row.value.instanceIds) identity

/-- The views with their workspaces. -/
def viewsIn (rows : List (Identity × ViewRow)) : List (Identity × Identity) :=
  rows.map fun row => (row.1, row.2.workspaceId)

theorem foldlM_checkView (hlinked : Linked dir s) (hkept : Kept s) :
    s.views.rows.foldlM (checkView (seenIn s.workspaces.rows)) [] =
      .ok (viewsIn s.views.rows) := by
  refine foldlM_eq_ok viewsIn fun done row rest hrows => ?_
  have hrow : s.views.lookup row.1 = some row.2 := Table.mem_rows.mp (by rw [hrows]; simp)
  obtain ⟨haccepted, hstored⟩ := hkept.view row.1 row.2 hrow
  have hview := hlinked.view row.1 row.2 hrow
  obtain ⟨space, hspace, hpanels⟩ := hview.panels
  simp only [checkView, document_eq_ok hstored, bind_eq_ok, raiseIf_eq_ok, orRaise_eq_ok,
    Except.ok.injEq, pure, Except.pure]
  refine ⟨(), trivial, (), ?_, space.value.instanceIds, ?_, (), not_not.mpr haccepted, (), ?_, ?_⟩
  · exact not_or.mpr ⟨not_not.mpr hview.id, not_not.mpr hview.workspace⟩
  · rw [lookup_seenIn, hspace, Option.map_some]
  · rw [not_not, List.all_eq_true]
    exact fun panel hpanel => decide_eq_true (hpanels panel hpanel)
  · simp [viewsIn]

/-- The check of the workspaces passes. -/
theorem workspaces_eq_ok (hlinked : Linked dir s) (hkept : Kept s) : workspaces s = .ok () := by
  unfold workspaces
  rw [foldlM_checkSpace hlinked hkept, ok_bind, foldlM_checkView hlinked hkept, ok_bind,
    forM_eq_ok]
  intro row hrow
  rw [Table.mem_rows] at hrow
  obtain ⟨haccepted, hstored⟩ := hkept.surface row.1 row.2 hrow
  have hsurface := hlinked.surface row.1 row.2 hrow
  simp only [checkSurface, document_eq_ok hstored, bind_eq_ok, raiseIf_eq_ok]
  refine ⟨(), trivial, (), not_not.mpr hsurface.id, (), not_not.mpr haccepted, (), ?_, ?_⟩
  · rw [not_not, List.all_eq_true]
    exact fun panel hpanel => decide_eq_true (hsurface.panels panel hpanel)
  · rw [forM_eq_ok]
    intro tile htile
    obtain ⟨view, space, hview, hworkspace, -, hspace, -⟩ := hsurface.tiles tile htile
    rw [checkTile, raiseIf_eq_ok, lookup_seenIn, hspace]
    have hfound : (viewsIn s.views.rows).lookup tile.viewId = some view.workspaceId := by
      have hrows := Table.lookup_map_rows s.views ViewRow.workspaceId tile.viewId
      rw [hview] at hrows
      exact hrows
    simp [hfound, hworkspace]

/-- A backup takes no other records. -/
theorem kept_of_workspaces (h : workspaces s = .ok ()) : Kept s := by
  simp only [workspaces, bind_eq_ok] at h
  obtain ⟨seen, hspaces, views, hviews, hsurfaces⟩ := h
  have hdocument {record : Json} {u : Unit} (hdoc : document record = .ok u) :
      stored record ≤ LIMIT := by
    rw [document, raiseIf_eq_ok] at hdoc
    omega
  refine ⟨fun identity row hrow => ?_, fun identity row hrow => ?_, fun identity row hrow => ?_⟩
  · have hmem : (identity, row) ∈ s.workspaces.rows := Table.mem_rows.mpr hrow
    obtain ⟨before, after, hcheck⟩ := foldlM_ok_mem hmem hspaces
    simp only [checkSpace, bind_eq_ok, raiseIf_eq_ok, not_not] at hcheck
    obtain ⟨u, hdoc, -, -, -, haccepted, -⟩ := hcheck
    exact ⟨haccepted, hdocument hdoc⟩
  · have hmem : (identity, row) ∈ s.views.rows := Table.mem_rows.mpr hrow
    obtain ⟨before, after, hcheck⟩ := foldlM_ok_mem hmem hviews
    simp only [checkView, bind_eq_ok, raiseIf_eq_ok, not_not] at hcheck
    obtain ⟨u, hdoc, -, -, -, -, -, haccepted, -⟩ := hcheck
    exact ⟨haccepted, hdocument hdoc⟩
  · have hcheck := forM_eq_ok.mp hsurfaces (identity, row) (Table.mem_rows.mpr hrow)
    simp only [checkSurface, bind_eq_ok, raiseIf_eq_ok, not_not] at hcheck
    obtain ⟨u, hdoc, -, -, -, haccepted, -⟩ := hcheck
    exact ⟨haccepted, hdocument hdoc⟩

/-- So does the check of the records. -/
theorem records_eq_ok (hlinked : Linked dir s) : records dir s = .ok () := by
  simp only [records, bind_eq_ok, raiseIf_eq_ok, pure, Except.pure]
  refine ⟨(), ?_, (), ?_, s.views.rows.map fun row => (row.1, row.2.workspaceId, row.2.subjectId),
    ?_, trivial⟩
  · rw [List.any_eq_true]
    rintro ⟨row, hrow, hproject⟩
    obtain ⟨identity, hlookup⟩ := Table.mem_values.mp hrow
    exact of_decide_eq_true hproject (hlinked.space identity row hlookup).project
  · rw [forM_eq_ok]
    intro row hrow
    rw [Table.mem_rows] at hrow
    have hview := hlinked.view row.1 row.2 hrow
    obtain ⟨space, hspace, -⟩ := hview.panels
    rw [checkViewOwner, raiseIf_eq_ok, hspace]
    simp [hview.user]
  · -- Every tile has a view with a record, so the owners stay as they are.
    refine foldlM_eq_ok (fun _ => _) fun done row rest hrows => ?_
    have hrow : s.surfaces.lookup row.1 = some row.2 := Table.mem_rows.mp (by rw [hrows]; simp)
    have hsurface := hlinked.surface row.1 row.2 hrow
    simp only [checkSurfaceOwner, bind_eq_ok, raiseIf_eq_ok]
    refine ⟨(), ?_, ?_⟩
    · exact not_or.mpr ⟨not_not.mpr hsurface.project, not_not.mpr hsurface.user⟩
    refine foldlM_eq_ok (fun _ => _) fun before tile after htiles => ?_
    obtain ⟨view, space, hview, hworkspace, huser, hspace, hproject⟩ :=
      hsurface.tiles tile (by rw [htiles]; simp)
    have hfound : (s.views.rows.map fun row =>
        (row.1, row.2.workspaceId, row.2.subjectId)).lookup tile.viewId =
        some (tile.workspaceId, row.2.subjectId) := by
      have hrows := Table.lookup_map_rows s.views
        (fun row => (row.workspaceId, row.subjectId)) tile.viewId
      rw [hview] at hrows
      rw [← hworkspace, ← huser]
      exact hrows
    simp only [checkTileOwner, hfound, hspace, Option.map_some, hproject, bind_eq_ok,
      raiseIf_eq_ok, pure, Except.pure]
    simp

end Backup

/-! ### Whole runs -/

/-- Every tile refers to a view of its workspace with the same owner and project, every panel to an
instance of its workspace, and every instance belongs to one workspace. -/
structure Referential (s : Store) : Prop where
  tiles : ∀ identity row, s.surfaces.lookup identity = some row →
    ∀ tile ∈ row.value.tiles, Tiled s row tile
  panels : ∀ identity row, s.views.lookup identity = some row → PanelsKnown s row
  instances : InstancesUnique s

/-- Linked tables refer to what is there. -/
theorem Linked.referential (h : Linked dir s) : Referential s where
  tiles identity row hrow := (h.surface identity row hrow).tiles
  panels identity row hrow := (h.view identity row hrow).panels
  instances := h.unique

/-- The checks of a backup pass. -/
def BackedUp (dir : Directory) (s : Store) : Prop :=
  Backup.workspaces s = .ok () ∧ Backup.records dir s = .ok ()

/-- In every run of careful requests the records refer to each other as they should and pass the
checks of a backup. -/
theorem workspaces_backed_up (requests : List (Request dir))
    (hcareful : Along Workspaces.step Careful .empty requests) :
    Referential (run Workspaces.step .empty requests) ∧
      BackedUp dir (run Workspaces.step .empty requests) := by
  have hboth : Linked dir (run Workspaces.step .empty requests) ∧
      Kept (run Workspaces.step .empty requests) := by
    refine Along.run_invariant (I := fun s => Linked dir s ∧ Kept s) ?_
      ⟨.empty dir, .empty⟩ hcareful
    rintro s request ⟨hlinked, hkept⟩ hcareful
    exact ⟨hlinked.step request, hkept.step hlinked hcareful⟩
  exact ⟨hboth.1.referential, Backup.workspaces_eq_ok hboth.1 hboth.2,
    Backup.records_eq_ok hboth.1⟩

namespace Example

def directory : Directory := ⟨[1], [1]⟩

def owner : Principal directory := ⟨1, 1, by decide, by decide⟩

def time : Time := ⟨"1.5".toList, by decide⟩

def name : Text := "Desk".toList

/-- A workspace with one view. -/
def requests (layout : Json) : List (Request directory) :=
  [⟨owner, .create name 10 time⟩, ⟨owner, .saveView 10 20 ⟨0, layout⟩⟩]

theorem workspaces_backed_up_desk :
    BackedUp directory (run Workspaces.step .empty (requests noLayout)) := by
  refine (workspaces_backed_up (requests noLayout) ⟨trivial, ⟨by decide, ?_⟩, trivial⟩).2
  exact (View.kept_noLayout 20 10 (by decide)).2

/-- A layout with a note of `DEL` characters. -/
def note (length : ℕ) : Json :=
  .object [("note".toList, .string (List.replicate length (Char.ofNat 127)))]

theorem length_note (cost : Char → ℕ) (length : ℕ) :
    (note length).length cost =
      2 + (Json.quoted cost "note".toList + 2 + (2 + length * cost (Char.ofNat 127))) := by
  simp [note, Json.enclosed, Json.quoted_replicate]

theorem panelIds_note (length : ℕ) : panelIds (note length) = [] := rfl

/-- The schema takes the note, because it is short in bytes. -/
theorem accepted_note {length : ℕ} (h : length ≤ 262000) :
    (⟨0, note length⟩ : ViewUpdate).accepted = true := by
  have hbytes : (note length).length Json.utf8Cost ≤ 262144 := by
    rw [length_note]
    have hkey : Json.quoted Json.utf8Cost "note".toList = 6 := by decide
    have hdel : Json.utf8Cost (Char.ofNat 127) = 1 := by decide
    rw [hkey, hdel]
    omega
  have hbounded : bounded (note length) 262144 = true := by
    simp only [bounded, decide_eq_true hbytes, Bool.and_true]
    rfl
  simp only [ViewUpdate.accepted, hbounded]
  rfl

/-- The view is saved with a layout that is accepted and has no panels. -/
theorem lookup_saved {layout : Json} (haccepted : (⟨0, layout⟩ : ViewUpdate).accepted = true)
    (hpanels : panelIds layout = []) :
    (run Workspaces.step .empty (requests layout)).views.lookup 20 =
      some ⟨10, ⟨20, 10, 1, layout⟩, 1⟩ := by
  let s : Store := Workspaces.step .empty (⟨owner, .create name 10 time⟩ : Request directory)
  have hperform : perform s (⟨owner, .saveView 10 20 ⟨0, layout⟩⟩ : Request directory) =
      .ok (s.putView owner 10 20 ⟨20, 10, 1, layout⟩) := by
    simp only [perform, Store.saveView, haccepted, hpanels]
    rfl
  show (Workspaces.step s _).views.lookup 20 = _
  rw [Workspaces.step, hperform]
  rfl

/-- A long note is stored as a record of more than one MiB, which no backup takes. -/
theorem not_backed_up_long {length : ℕ} (hfits : length ≤ 262000) (hlong : 180000 ≤ length) :
    ¬BackedUp directory (run Workspaces.step .empty (requests (note length))) := by
  have hsaved := lookup_saved (accepted_note hfits) (panelIds_note length)
  intro hbacked
  have hstored : stored (View.toJson ⟨20, 10, 1, note length⟩) ≤ LIMIT :=
    ((Backup.kept_of_workspaces hbacked.1).view 20 _ hsaved).2
  have hnote : 6 * 180000 ≤ (note length).length Json.escapedCost := by
    have hdel : Json.escapedCost (Char.ofNat 127) = 6 := by decide
    rw [length_note, hdel]
    omega
  simp only [View.toJson, stored, Json.length_object, Json.enclosed, List.map_cons, List.sum_cons,
    LIMIT] at hstored
  omega

theorem not_backed_up_note :
    ¬BackedUp directory (run Workspaces.step .empty (requests (note 200000))) :=
  not_backed_up_long (by omega) (by omega)

end Example

end Ficc.Workspaces
