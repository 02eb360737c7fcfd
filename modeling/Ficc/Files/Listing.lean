import Ficc.Files.Node
import Ficc.Foundations.Base64
import Ficc.Foundations.Keyset

/-!
# Directory listings

A directory is listed page by page. For a page all names are scanned in whatever order the system
returns them, only the first ones after the cursor are kept, and the page ends with its limit or
before the response gets too long. Names are bytes in the order of bytes, and a cursor holds the
last name as text.

## Main results

* `scanned_eq`: what is kept of a scan does not depend on its order.
* `page_spec`: one page of an unchanged directory.
* `listing_complete`: the pages that follow one another end, and list every name once, in order.
-/

namespace Ficc.Files

open Execution (Digest Hash)

instance instLinearOrderUInt8 : LinearOrder UInt8 where
  le_refl a := UInt8.le_iff_toNat_le.mpr (Nat.le_refl _)
  le_trans a b c h h' := UInt8.le_iff_toNat_le.mpr
    ((UInt8.le_iff_toNat_le.mp h).trans (UInt8.le_iff_toNat_le.mp h'))
  le_antisymm a b h h' := UInt8.toNat_inj.mp
    (Nat.le_antisymm (UInt8.le_iff_toNat_le.mp h) (UInt8.le_iff_toNat_le.mp h'))
  le_total a b := by
    rw [UInt8.le_iff_toNat_le, UInt8.le_iff_toNat_le]
    exact Nat.le_total _ _
  lt_iff_le_not_ge a b := by
    rw [UInt8.lt_iff_toNat_lt, UInt8.le_iff_toNat_le, UInt8.le_iff_toNat_le]
    exact Nat.lt_iff_le_and_not_ge
  toDecidableLE := inferInstance
  toDecidableLT := inferInstance

namespace Listing

/-- The name of a directory entry, as bytes. -/
abbrev RawName : Type := List UInt8

/-- `.ficc-`, which begins the names of the spool. -/
def RESERVED : RawName := [46, 102, 105, 99, 99, 45]

def Reserved (name : RawName) : Prop := RESERVED <+: name

instance : DecidablePred Reserved := fun name => inferInstanceAs (Decidable (RESERVED <+: name))

/-- The name is one that an entry can have. -/
def Valid (name : RawName) : Prop :=
  name ≠ [] ∧ name.length ≤ 255 ∧ name ≠ [46] ∧ name ≠ [46, 46] ∧ 47 ∉ name ∧ 0 ∉ name

instance : DecidablePred Valid := fun _ => inferInstanceAs (Decidable (_ ∧ _))

def invalidEntry : Error := .failure "invalid_entry" "The entry name is invalid." 409

/-- The name of a text. -/
def decode (text : List Char) : Except Error RawName := do
  raiseIf (340 < text.length) invalidEntry
  let value ← orRaise (Base64.decode text) invalidEntry
  raiseIf (¬Valid value) invalidEntry
  .ok value

structure Cursor where
  revision : Digest
  after : List Char
deriving DecidableEq

/-- What `stat` says about an entry. -/
structure Info where
  identity : ObjectIdentity
  uid : ℕ
  gid : ℕ
  mode : ℕ
deriving DecidableEq

/-- What a listing reports about an entry: its name and information, and the reference with its
path and its directory. -/
structure Value where
  name : RawName
  info : Info
  parts : List (List Char)
  parent : ObjectIdentity
  revision : Digest
deriving DecidableEq

/-- The length of the text of an entry in the response. -/
class Printing where
  length : Value → ℕ

structure Page where
  entries : List Value
  next : Option Cursor
deriving DecidableEq

/-- Keeps one more name of a scan. -/
def keep (limit : ℕ) (after : RawName) (names : List RawName) (name : RawName) : List RawName :=
  if ¬Reserved name ∧ after < name then
    let names := names ++ [name]
    if limit + 1 < names.length then (names.insertionSort (· ≤ ·)).dropLast else names
  else names

/-- The names that a scan keeps, in order. -/
def scanned (limit : ℕ) (after : RawName) (scan : List RawName) : List RawName :=
  (scan.foldl (keep limit after) []).insertionSort (· ≤ ·)

variable [Hash ObjectIdentity] [Printing]

/-- What is reported about an entry. -/
def infoValue (parts : List (List Char)) (parent : ObjectIdentity) (name : RawName) (info : Info) :
    Value where
  name := name
  info := info
  parts := parts ++ [Base64.encode name]
  parent := parent
  revision := Hash.digest info.identity

/-- The entries of a page, until the response would get too long. -/
def collect (value : RawName → Option Value) (bytes : ℕ) (result : List Value) :
    List RawName → Except Error (List Value)
  | [] => .ok result
  | name :: rest => do
    let value' ← orRaise (value name) .os
    if result ≠ [] ∧ 524288 < bytes + Printing.length value' then .ok result
    else collect value (bytes + Printing.length value') (result ++ [value']) rest

/-- The name after which a page starts. -/
def start (revision : Digest) : Option Cursor → Except Error RawName
  | none => .ok []
  | some cursor => do
    raiseIf (cursor.revision ≠ revision)
      (.failure "stale_cursor" "The directory changed. Refresh its first page." 409)
    decode cursor.after

/-- Lists a page of a directory. Its identity is read before and after the scan. -/
def listing (before afterwards : ObjectIdentity) (parts : List (List Char)) (scan : List RawName)
    (stat : RawName → Option Info) (cursor : Option Cursor) (limit : ℕ) : Except Error Page := do
  raiseIf (¬(1 ≤ limit ∧ limit ≤ 200))
    (.failure "invalid_limit" "The listing limit is invalid." 409)
  let revision := Hash.digest before
  let after ← start revision cursor
  raiseIf (10000 < scan.length)
    (.failure "directory_limit" "The directory exceeds 10,000 entries." 409)
  let names := scanned limit after scan
  let result ← collect (fun name => (stat name).map (infoValue parts before name)) 0 []
    (names.take limit)
  raiseIf (before ≠ afterwards)
    (.failure "stale_cursor" "The directory changed during listing." 409)
  .ok {
    entries := result
    next :=
      if result.length < names.length then
        -- The index of an empty result is that of the last name.
        (if result = [] then names.getLast? else names[result.length - 1]?).map fun last =>
          ⟨revision, Base64.encode last⟩
      else none }

/-! ### The scan -/

section Scan

variable {limit : ℕ} {after : RawName} {names scan : List RawName}

/-- The names of a scan that a page can have. -/
def candidates (after : RawName) (scan : List RawName) : List RawName :=
  scan.filter fun name => ¬Reserved name ∧ after < name

omit [Hash ObjectIdentity] [Printing] in
/-- Trimming loses no name that could still be among the first. -/
theorem keep_perm (h : names.Perm (Keyset.smallest (limit + 1) (candidates after scan)))
    (name : RawName) : (keep limit after names name).Perm
      (Keyset.smallest (limit + 1) (candidates after (scan ++ [name]))) := by
  unfold keep
  by_cases hname : ¬Reserved name ∧ after < name
  · have hmore : candidates after (scan ++ [name]) = candidates after scan ++ [name] := by
      rw [candidates, List.filter_append, List.filter_cons_of_pos (by simpa using hname),
        List.filter_nil]
      rfl
    have hsame : Keyset.smallest (limit + 1) (names ++ [name]) =
        Keyset.smallest (limit + 1) (candidates after (scan ++ [name])) := by
      rw [hmore]
      exact (Keyset.smallest_congr _ (h.append_right [name])).trans (Keyset.smallest_concat _ _ _)
    have hle : names.length ≤ limit + 1 := by
      rw [h.length_eq, Keyset.smallest, List.length_take]
      exact min_le_left _ _
    rw [if_pos hname, ← hsame]
    dsimp only
    split
    · -- One name too many: the largest one goes.
      rename_i hlong
      have hlength : ((names ++ [name]).insertionSort (· ≤ ·)).length = limit + 1 + 1 := by
        rw [List.length_insertionSort, List.length_append, List.length_singleton] at *
        omega
      rw [List.dropLast_eq_take, hlength]
      exact List.Perm.refl _
    · rename_i hshort
      rw [Keyset.smallest_of_length_le (not_lt.mp hshort)]
      exact (List.perm_insertionSort _ _).symm
  · rw [if_neg hname]
    have hmore : candidates after (scan ++ [name]) = candidates after scan := by
      rw [candidates, List.filter_append, List.filter_cons_of_neg (by simpa using hname),
        List.filter_nil, List.append_nil]
      rfl
    rwa [hmore]

omit [Hash ObjectIdentity] [Printing] in
/-- What is kept of a scan does not depend on its order. -/
theorem scanned_eq (limit : ℕ) (after : RawName) (scan : List RawName) :
    scanned limit after scan = Keyset.smallest (limit + 1) (candidates after scan) := by
  have hkept : (scan.foldl (keep limit after) []).Perm
      (Keyset.smallest (limit + 1) (candidates after scan)) := by
    induction scan using List.reverseRecOn with
    | nil => exact List.Perm.refl _
    | append_singleton scan name ih =>
      rw [List.foldl_append]
      exact keep_perm ih name
  rw [scanned, Keyset.insertionSort_congr hkept]
  refine List.Pairwise.insertionSort_eq ?_
  exact (List.pairwise_insertionSort _ _).sublist (List.take_sublist _ _)

end Scan

/-! ### One page -/

section Pages

variable {value : RawName → Option Value}

omit [Hash ObjectIdentity] in
/-- The entries of a page are those of the first names, and of the first name at least. -/
theorem collect_eq {names : List RawName}
    (h : ∀ name ∈ names, ∃ found, value name = some found ∧ found.name = name) (bytes : ℕ)
    (result : List Value) :
    ∃ n found, collect value bytes result names = .ok (result ++ found) ∧
      found.map Value.name = names.take n ∧ n ≤ names.length ∧
      (result = [] → names ≠ [] → 1 ≤ n) := by
  induction names generalizing bytes result with
  | nil => exact ⟨0, [], by rw [List.append_nil]; rfl, rfl, le_refl 0, fun _ hne => absurd rfl hne⟩
  | cons name rest ih =>
    obtain ⟨first, hfirst, hname⟩ := h name List.mem_cons_self
    simp only [collect, hfirst, orRaise, ok_bind]
    split
    · rename_i hlong
      exact ⟨0, [], by rw [List.append_nil], rfl, Nat.zero_le _, fun hempty => absurd hempty hlong.1⟩
    · obtain ⟨n, found, hfound, hnames, hle, -⟩ :=
        ih (fun other hother => h other (List.mem_cons_of_mem name hother))
          (bytes + Printing.length first) (result ++ [first])
      refine ⟨n + 1, first :: found, ?_, ?_, Nat.succ_le_succ hle, fun _ _ => Nat.le_add_left 1 n⟩
      · rw [hfound, List.append_assoc]
        rfl
      · rw [List.map_cons, List.take_succ_cons, hnames, hname]

/-- A directory that does not change while it is listed. -/
structure Folder where
  identity : ObjectIdentity
  parts : List (List Char)
  names : List RawName
  nodup : names.Nodup
  valid : ∀ name ∈ names, Valid name
  small : names.length ≤ 10000

/-- A request for a page: its limit, the order of the scan, and what is read about the entries. -/
structure Request (folder : Folder) where
  limit : ℕ
  scan : List RawName
  info : RawName → Info
  positive : 1 ≤ limit
  bounded : limit ≤ 200
  perm : scan.Perm folder.names

namespace Folder

variable (folder : Folder)

/-- The entry has to be listed. -/
def Listed (name : RawName) : Prop := name ∈ folder.names ∧ ¬Reserved name

def cursor (last : RawName) : Cursor :=
  ⟨Hash.digest folder.identity, Base64.encode last⟩

/-- A page of the directory. -/
def page (request : Request folder) (cursor : Option Cursor) : Except Error Page :=
  listing folder.identity folder.identity folder.parts request.scan
    (fun name => if name ∈ folder.names then some (request.info name) else none) cursor
    request.limit

/-- The names after a cursor, in order. -/
def remaining (cursor : Option RawName) : List RawName :=
  (candidates (cursor.getD []) folder.names).insertionSort (· ≤ ·)

end Folder

variable {folder : Folder} {cursor : Option RawName}

omit [Hash ObjectIdentity] [Printing] in
theorem getD_lt_iff {name : RawName} (hname : name ≠ []) :
    cursor.getD [] < name ↔ Keyset.Beyond cursor name := by
  cases cursor with
  | none =>
    refine ⟨fun _ _ hlast => (by cases hlast), fun _ => ?_⟩
    cases name with
    | nil => exact absurd rfl hname
    | cons first rest => exact List.nil_lt_cons first rest
  | some last =>
    exact ⟨fun hlt other hother => Option.some.inj hother ▸ hlt, fun hbeyond => hbeyond last rfl⟩

omit [Hash ObjectIdentity] [Printing] in
theorem mem_remaining {name : RawName} :
    name ∈ folder.remaining cursor ↔ folder.Listed name ∧ Keyset.Beyond cursor name := by
  rw [Folder.remaining, List.mem_insertionSort, candidates, List.mem_filter, Folder.Listed]
  simp only [decide_eq_true_eq, and_assoc]
  refine and_congr_right fun hname => and_congr_right fun _ => ?_
  exact getD_lt_iff (folder.valid name hname).1

omit [Hash ObjectIdentity] [Printing] in
theorem decode_encode {name : RawName} (h : Valid name) : decode (Base64.encode name) = .ok name := by
  have hlength : ¬340 < (Base64.encode name).length := by
    have hle := h.2.1
    rw [Base64.length_encode]
    omega
  simp [decode, raiseIf, hlength, Base64.decode_encode, orRaise, h, bind, Except.bind]

/-- One page of an unchanged directory, whatever the order of the scan and wherever the page is cut
short. -/
theorem page_spec (request : Request folder) (hcursor : ∀ last ∈ cursor, Valid last) :
    ∃ page, folder.page request (cursor.map folder.cursor) = .ok page ∧
      Keyset.Page folder.Listed cursor (page.entries.map Value.name) page.next.isSome ∧
      (∀ name ∈ page.entries.map Value.name, folder.Listed name) ∧
      (page.next ≠ none → page.entries ≠ [] ∧
        page.next = (Keyset.advance cursor (page.entries.map Value.name)).map folder.cursor) := by
  have hstart : start (Hash.digest folder.identity) (cursor.map folder.cursor) =
      .ok (cursor.getD []) := by
    cases cursor with
    | none => rfl
    | some last =>
      simp [start, Folder.cursor, raiseIf, decode_encode (hcursor last rfl), bind, Except.bind]
  -- What is scanned are the first of the remaining names.
  have hscanned : scanned request.limit (cursor.getD []) request.scan =
      (folder.remaining cursor).take (request.limit + 1) := by
    have hsame : (candidates (cursor.getD []) request.scan).Perm
        (candidates (cursor.getD []) folder.names) := request.perm.filter _
    rw [scanned_eq, Keyset.smallest, Folder.remaining, Keyset.insertionSort_congr hsame]
  have htake : ((folder.remaining cursor).take (request.limit + 1)).take request.limit =
      (folder.remaining cursor).take request.limit := by
    rw [List.take_take, Nat.min_eq_left (Nat.le_succ _)]
  have hvalues : ∀ name ∈ (folder.remaining cursor).take request.limit, ∃ found,
      (if name ∈ folder.names then some (request.info name) else none).map
        (infoValue folder.parts folder.identity name) = some found ∧ found.name = name := by
    intro name hname
    have hlisted := (mem_remaining.mp (List.mem_of_mem_take hname)).1
    exact ⟨infoValue folder.parts folder.identity name (request.info name),
      by rw [if_pos hlisted.1]; rfl, rfl⟩
  obtain ⟨n, found, hfound, hnames, hle, hpos⟩ := collect_eq hvalues 0 []
  rw [List.nil_append] at hfound
  rw [List.length_take] at hle
  have hlimit := request.positive
  have hentries : found.map Value.name = (folder.remaining cursor).take n := by
    rw [hnames, List.take_take, Nat.min_eq_left (by omega)]
  have hlength : found.length = n := by
    have hlength := congrArg List.length hentries
    rw [List.length_map, List.length_take] at hlength
    omega
  -- The page announces more exactly when names remain behind it.
  have hmore : found.length < ((folder.remaining cursor).take (request.limit + 1)).length ↔
      n < (folder.remaining cursor).length := by
    rw [hlength, List.length_take]
    omega
  have hpage : Keyset.Page folder.Listed cursor (found.map Value.name)
      (decide (n < (folder.remaining cursor).length)) := by
    rw [hentries]
    refine Keyset.page_take ?_ (fun name hname => (mem_remaining.mp hname).2)
      (fun name hlisted hbeyond => mem_remaining.mpr ⟨hlisted, hbeyond⟩) n
    exact Keyset.insertionSort_pairwise_lt (folder.nodup.filter _)
  have hsmall : ¬10000 < request.scan.length := by
    rw [request.perm.length_eq]
    exact not_lt.mpr folder.small
  have hresult : folder.page request (cursor.map folder.cursor) = .ok {
      entries := found
      next :=
        if found.length < ((folder.remaining cursor).take (request.limit + 1)).length then
          (if found = [] then ((folder.remaining cursor).take (request.limit + 1)).getLast?
            else ((folder.remaining cursor).take (request.limit + 1))[found.length - 1]?).map
              folder.cursor
        else none } := by
    have hbounds : ¬¬(1 ≤ request.limit ∧ request.limit ≤ 200) :=
      not_not.mpr ⟨request.positive, request.bounded⟩
    simp only [Folder.page, listing, raiseIf, if_neg hbounds, ok_bind, hstart, if_neg hsmall,
      hscanned, htake, hfound, ne_eq, not_true_eq_false, if_false]
    rfl
  have hlisted : ∀ name ∈ found.map Value.name, folder.Listed name := by
    intro name hname
    rw [hentries] at hname
    exact (mem_remaining.mp (List.mem_of_mem_take hname)).1
  by_cases hlast : n < (folder.remaining cursor).length
  · -- The last name of the page is the one before the first that was left out.
    have hn : 1 ≤ n := by
      refine hpos rfl fun hempty => ?_
      have hzero := congrArg List.length hempty
      rw [List.length_take, List.length_nil] at hzero
      omega
    have hne : found ≠ [] := by
      rintro rfl
      rw [List.length_nil] at hlength
      omega
    have hget : ((folder.remaining cursor).take (request.limit + 1))[found.length - 1]? =
        (found.map Value.name).getLast? := by
      rw [hentries, hlength, List.getLast?_take, if_neg (by omega), List.getElem?_take_of_lt
        (by omega), List.getElem?_eq_getElem (by omega)]
      rfl
    rw [if_pos (hmore.mpr hlast), if_neg hne, hget] at hresult
    rw [decide_eq_true hlast] at hpage
    have hgetLast : (found.map Value.name).getLast? = some _ :=
      List.getLast?_eq_some_getLast (by simpa using hne)
    rw [hgetLast] at hresult
    refine ⟨_, hresult, hpage, hlisted, fun _ => ⟨hne, ?_⟩⟩
    rw [Keyset.advance, hgetLast]
    rfl
  · rw [if_neg (mt hmore.mp hlast)] at hresult
    rw [decide_eq_false hlast] at hpage
    exact ⟨_, hresult, hpage, hlisted, fun hne => absurd rfl hne⟩

/-! ### All pages -/

/-- What a client has read, and the cursor for the next page. -/
structure Walk where
  values : List Value
  cursor : Option Cursor
  finished : Bool

/-- Follows the cursors for a number of pages. -/
def browse (folder : Folder) (requests : ℕ → Request folder) : ℕ → Except Error Walk
  | 0 => .ok ⟨[], none, false⟩
  | n + 1 => do
    let walk ← browse folder requests n
    if walk.finished then .ok walk
    else do
      let page ← folder.page (requests n) walk.cursor
      .ok ⟨walk.values ++ page.entries, page.next, page.next.isNone⟩

/-- What holds after each page. -/
inductive Browsing (folder : Folder) (n : ℕ) (walk : Walk) : Prop
  | reading (cursor : Option RawName) (valid : ∀ last ∈ cursor, Valid last)
    (cursor_eq : walk.cursor = cursor.map folder.cursor) (unfinished : walk.finished = false)
    (walked : Keyset.Walked folder.Listed cursor (walk.values.map Value.name))
    (listed : ∀ name ∈ walk.values.map Value.name, folder.Listed name)
    (progress : n ≤ walk.values.length)
  | over (finished : walk.finished = true)
    (ordered : (walk.values.map Value.name).Pairwise (· < ·))
    (complete : ∀ name, name ∈ walk.values.map Value.name ↔ folder.Listed name)

theorem browsing_browse (folder : Folder) (requests : ℕ → Request folder) (n : ℕ) :
    ∃ walk, browse folder requests n = .ok walk ∧ Browsing folder n walk := by
  induction n with
  | zero =>
    exact ⟨_, rfl, .reading none (fun _ h => nomatch h) rfl rfl Keyset.walked_nil
      (fun _ h => nomatch h) (le_refl 0)⟩
  | succ n ih =>
    obtain ⟨walk, hwalk, hbrowsing⟩ := ih
    rcases hbrowsing with ⟨cursor, valid, cursor_eq, unfinished, walked, listed, progress⟩ |
      ⟨finished, ordered, complete⟩
    · obtain ⟨page, hpage, hkeys, hlisted, hnext⟩ := page_spec (requests n) valid
      have hbrowse : browse folder requests (n + 1) =
          .ok ⟨walk.values ++ page.entries, page.next, page.next.isNone⟩ := by
        simp [browse, hwalk, unfinished, cursor_eq, hpage]
      refine ⟨_, hbrowse, ?_⟩
      have hall : ∀ name ∈ (walk.values ++ page.entries).map Value.name, folder.Listed name := by
        intro name hname
        rw [List.map_append] at hname
        exact (List.mem_append.mp hname).elim (listed name) (hlisted name)
      by_cases hmore : page.next = none
      · rw [hmore] at hkeys
        obtain ⟨hordered, hcovers⟩ := walked.last_page hkeys
        rw [← List.map_append] at hordered hcovers
        exact .over (by rw [hmore]; rfl) hordered
          fun name => ⟨hall name, hcovers name⟩
      · obtain ⟨hne, hcursor⟩ := hnext hmore
        refine .reading (Keyset.advance cursor (page.entries.map Value.name)) ?_ hcursor
          (Option.isNone_eq_false_iff.mpr (Option.isSome_iff_ne_none.mpr hmore)) ?_ hall ?_
        · intro last hlast
          unfold Keyset.advance at hlast
          cases hgetLast : (page.entries.map Value.name).getLast? with
          | none =>
            rw [hgetLast] at hlast
            exact valid last hlast
          | some final =>
            rw [hgetLast] at hlast
            obtain rfl : final = last := Option.some.inj hlast
            exact folder.valid final (hlisted final (List.mem_of_getLast? hgetLast)).1
        · rw [List.map_append]
          exact walked.append hkeys
        · have hpos := List.length_pos_of_ne_nil hne
          rw [List.length_append]
          omega
    · refine ⟨walk, ?_, .over finished ordered complete⟩
      simp [browse, hwalk, finished]

/-- For every directory that does not change, every order of each scan and every sequence of page
limits: no page raises an error, the cursors end, and the pages together have every name that is
not reserved exactly once, in order. -/
theorem listing_complete (folder : Folder) (requests : ℕ → Request folder) :
    (∀ n, ∃ walk, browse folder requests n = .ok walk) ∧
      ∃ n walk, browse folder requests n = .ok walk ∧ walk.finished = true ∧
        (walk.values.map Value.name).Pairwise (· < ·) ∧
        ∀ name, name ∈ walk.values.map Value.name ↔ name ∈ folder.names ∧ ¬Reserved name := by
  refine ⟨fun n => ?_, folder.names.length + 1, ?_⟩
  · obtain ⟨walk, hwalk, -⟩ := browsing_browse folder requests n
    exact ⟨walk, hwalk⟩
  obtain ⟨walk, hwalk, hbrowsing⟩ := browsing_browse folder requests (folder.names.length + 1)
  refine ⟨walk, hwalk, ?_⟩
  rcases hbrowsing with ⟨cursor, valid, cursor_eq, unfinished, walked, listed, progress⟩ |
    ⟨finished, ordered, complete⟩
  · -- Every page has a name, and there are only so many.
    exfalso
    have hnodup : (walk.values.map Value.name).Nodup := walked.ordered.imp ne_of_lt
    have hsub : walk.values.map Value.name ⊆ folder.names := fun name hname => (listed name hname).1
    have hle := (List.subperm_of_subset hnodup hsub).length_le
    rw [List.length_map] at hle
    omega
  · exact ⟨finished, ordered, complete⟩

end Pages

end Listing

end Ficc.Files
