import Ficc.Foundations.JsonRecords

/-!
# Reading without repeated keys

`strict` builds an object only from members of different keys, so that a text in which an object
repeats a key is not read at all.

## Main results

* `readBy_every`: what a strict reader finds in a text without halves of pairs has no two halves next
  to each other and no repeated key, so that it is `settled`.
* `readBy_sorted`: it is read back from its text with sorted keys, which `sorted_sorted` leaves as they
  are.
-/

namespace Ficc.JsonText

open Utf16 Utf8

/-! ### What a reader finds in a string -/

theorem apart_cons_of_not_surrogate {c : CodePoint} (hc : isSurrogate c = false) {text : Text}
    (h : apart text = true) : apart (c :: text) = true := by
  cases text with
  | nil => rfl
  | cons d rest =>
    rw [apart, h, Bool.and_true, Bool.not_eq_true', Bool.and_eq_false_iff]
    left
    simp only [isSurrogate, Bool.and_eq_false_iff, decide_eq_false_iff_not] at hc ⊢
    omega

theorem apart_cons_of_next {c : CodePoint} {text : Text} (h : apart text = true)
    (hnext : ∀ d rest, text = d :: rest → ¬(55296 ≤ c.val ∧ c.val < 56320 ∧ 56320 ≤ d.val ∧
      d.val < 57344)) : apart (c :: text) = true := by
  cases text with
  | nil => rfl
  | cons d rest =>
    have hpair := hnext d rest rfl
    rw [apart, h, Bool.and_true, Bool.not_eq_true', Bool.and_eq_false_iff]
    simp only [Bool.and_eq_false_iff, decide_eq_false_iff_not]
    omega

theorem isSurrogate_combine (u v : CodeUnit) : isSurrogate (combine u v) = false := by
  have hval : (combine u v).val = 65536 + u.val % 1024 * 1024 + v.val % 1024 := rfl
  rw [isSurrogate, hval, Bool.and_eq_false_iff, decide_eq_false_iff_not, decide_eq_false_iff_not]
  omega

/-- The text of an escaped unit and more starts with a second half only if the unit is one. -/
theorem head_join {v : CodeUnit} {rest : List Piece} {d : CodePoint} {more : Text}
    (h : join (.unit v :: rest) = d :: more) (hd : 56320 ≤ d.val ∧ d.val < 57344) :
    isLow v = true := by
  have hunit (hsame : ofUnit v = d) : isLow v = true := by
    have hval : v.val = d.val := congrArg Fin.val hsame
    simp only [isLow, Bool.and_eq_true, decide_eq_true_eq]
    omega
  rcases rest with _ | ⟨c | w, rest⟩
  · rw [join] at h
    exact hunit (List.cons.inj h).1
  · rw [join] at h
    exact hunit (List.cons.inj h).1
  · rw [join] at h
    split_ifs at h
    · have hcombined := isSurrogate_combine v w
      rw [(List.cons.inj h).1] at hcombined
      simp only [isSurrogate, Bool.and_eq_false_iff, decide_eq_false_iff_not] at hcombined
      omega
    · exact hunit (List.cons.inj h).1

/-- Two escaped halves of a pair have been joined. -/
theorem apart_join {pieces : List Piece}
    (h : ∀ c, Piece.plain c ∈ pieces → isSurrogate c = false) : apart (join pieces) = true := by
  induction pieces using join.induct with
  | case1 => rfl
  | case2 c rest ih =>
    rw [join]
    exact apart_cons_of_not_surrogate (h c List.mem_cons_self)
      (ih fun d hd => h d (List.mem_cons_of_mem _ hd))
  | case3 u => rfl
  | case4 u c rest ih =>
    have hc : isSurrogate c = false := h c (by simp)
    rw [join]
    refine apart_cons_of_next (apart_cons_of_not_surrogate hc (ih fun d hd => h d ?_)) ?_
    · exact List.mem_cons_of_mem _ (List.mem_cons_of_mem _ hd)
    · rintro d rest' hsame ⟨-, -, hd⟩
      obtain rfl := (List.cons.inj hsame).1
      simp only [isSurrogate, Bool.and_eq_false_iff, decide_eq_false_iff_not] at hc
      omega
  | case5 u v rest hpair ih =>
    rw [join, if_pos hpair]
    refine apart_cons_of_not_surrogate (isSurrogate_combine u v) (ih fun d hd => h d ?_)
    exact List.mem_cons_of_mem _ (List.mem_cons_of_mem _ hd)
  | case6 u v rest hsingle ih =>
    rw [join, if_neg hsingle]
    refine apart_cons_of_next (ih fun d hd => h d (List.mem_cons_of_mem _ hd)) ?_
    rintro d more hsame ⟨hhigh, hhigh', hlow⟩
    have hv := head_join hsame hlow
    have hu : isHigh u = true := by
      simp only [isHigh, Bool.and_eq_true, decide_eq_true_eq]
      exact ⟨hhigh, hhigh'⟩
    rw [hu, hv] at hsingle
    exact absurd rfl hsingle

theorem whole_suffix {rest input : Text} (hsuffix : rest <:+ input) (h : whole input = true) :
    whole rest = true := by
  rw [whole, List.all_eq_true] at h ⊢
  exact fun c hc => h c (hsuffix.mem hc)

/-- The pieces of a string come from the input, and so does what is left. -/
def FromInput (input : Text) (found : Option (List Piece × Text)) : Prop :=
  ∀ pieces rest, found = some (pieces, rest) →
    rest <:+ input ∧ ∀ c, Piece.plain c ∈ pieces → isSurrogate c = false

/-- One more piece in front of those that have been found. -/
theorem FromInput.cons {tail : Text} {found : Option (List Piece × Text)}
    (h : FromInput tail found) (front : Text) {piece : Piece}
    (hpiece : ∀ c, piece = .plain c → isSurrogate c = false) :
    FromInput (front ++ tail) (found.map fun found => (piece :: found.1, found.2)) := by
  intro pieces rest hfound
  obtain ⟨⟨later, left⟩, hlater, hsame⟩ := Option.map_eq_some_iff.mp hfound
  obtain ⟨rfl, rfl⟩ := Prod.mk.inj hsame
  obtain ⟨hsuffix, hplain⟩ := h later left hlater
  refine ⟨hsuffix.trans (List.suffix_append _ _), fun c hc => ?_⟩
  obtain hc | hc := List.mem_cons.mp hc
  · exact hpiece c hc.symm
  · exact hplain c hc

theorem fromInput_none (input : Text) : FromInput input none := fun _ _ h => nomatch h

theorem readPieces_fromInput {input : Text} (hinput : whole input = true) :
    FromInput input (readPieces input) := by
  -- What is left of the input behind a piece has no halves of pairs either.
  have hrest (front : Text) {tail : Text} (hwhole : whole (front ++ tail) = true) :
      whole tail = true := whole_suffix (List.suffix_append _ _) hwhole
  induction input using readPieces.induct with
  | case1 => rw [readPieces]; exact fromInput_none _
  | case2 c tail hquote =>
    rw [readPieces.eq_def]
    dsimp only
    rw [if_pos hquote]
    rintro pieces rest hsame
    obtain ⟨rfl, rfl⟩ := Prod.mk.inj (Option.some.inj hsame)
    exact ⟨List.suffix_cons _ _, fun _ hc => absurd hc List.not_mem_nil⟩
  | case3 c hquote hslash =>
    rw [readPieces.eq_def]
    dsimp only
    rw [if_neg hquote, if_pos hslash]
    exact fromInput_none _
  | case4 c hquote hslash letter hletter x y z w tail ih =>
    rw [readPieces, if_neg hquote, if_pos hslash, if_pos hletter]
    cases hexUnit x y z w with
    | none => exact fromInput_none _
    | some u =>
      have htail : whole tail = true := hrest [c, letter, x, y, z, w] hinput
      exact (ih htail).cons [c, letter, x, y, z, w] fun _ hu => Piece.noConfusion hu
  | case5 c hquote hslash letter rest hletter hshort =>
    rw [readPieces.eq_def]
    dsimp only
    rw [if_neg hquote, if_pos hslash, if_pos hletter]
    split
    · next x y z w tail => exact absurd rfl (hshort x y z w tail)
    · exact fromInput_none _
  | case6 c hquote hslash letter tail hletter value hlookup ih =>
    have hall : ∀ pair ∈ shortReads, isSurrogate (Fin.ofNat 1114112 pair.2) = false := by decide
    have htail : whole tail = true := hrest [c, letter] hinput
    rw [readPieces.eq_def]
    dsimp only
    rw [if_neg hquote, if_pos hslash, if_neg hletter, hlookup]
    refine (ih htail).cons [c, letter] fun d hd => ?_
    obtain rfl := Piece.plain.inj hd
    exact hall _ (mem_of_lookup_eq_some hlookup)
  | case7 c hquote hslash letter tail hletter hlookup =>
    rw [readPieces.eq_def]
    dsimp only
    rw [if_neg hquote, if_pos hslash, if_neg hletter, hlookup]
    exact fromInput_none _
  | case8 c tail hquote hslash hcontrol =>
    rw [readPieces.eq_def]
    dsimp only
    rw [if_neg hquote, if_neg hslash, if_pos hcontrol]
    exact fromInput_none _
  | case9 c tail hquote hslash hcontrol ih =>
    have htail : whole tail = true := hrest [c] hinput
    rw [readPieces.eq_def]
    dsimp only
    rw [if_neg hquote, if_neg hslash, if_neg hcontrol]
    refine (ih htail).cons [c] fun d hd => ?_
    obtain rfl := Piece.plain.inj hd
    rw [whole, List.all_cons, Bool.and_eq_true, Bool.not_eq_true'] at hinput
    exact hinput.1

theorem readText_apart {input text rest : Text} (hinput : whole input = true)
    (h : readText input = some (text, rest)) : rest <:+ input ∧ apart text = true := by
  rw [readText, Option.map_eq_some_iff] at h
  obtain ⟨⟨pieces, left⟩, hpieces, hsame⟩ := h
  obtain ⟨rfl, rfl⟩ := Prod.mk.inj hsame
  obtain ⟨hsuffix, hplain⟩ := readPieces_fromInput hinput pieces left hpieces
  exact ⟨hsuffix, apart_join hplain⟩

/-! ### What a strict reader finds -/

variable {N : Type} [Numeral N]

/-- An object is built from members of different keys. -/
def strict : Build N := fun members =>
  if (members.map Prod.fst).Nodup then some (.object members) else none

/-- Texts without two halves next to each other, and objects without repeated keys. -/
def sound (number : N → Bool) : Document.Rules Text N where
  text := apart
  key := apart
  number := number
  keys keys := keys.Nodup

theorem skip_suffix (input : Text) : skip input <:+ input := List.dropWhile_suffix _

omit [Numeral N] in
/-- A word is no text, number or object. -/
theorem readWord_sound {number : N → Bool} {word input rest : Text} {value document : Document Text N}
    (hvalue : value.every (sound number) = true)
    (h : readWord word value input = some (document, rest)) :
    rest <:+ input ∧ document.every (sound number) = true := by
  rw [readWord] at h
  split_ifs at h
  obtain ⟨rfl, rfl⟩ := Prod.mk.inj (Option.some.inj h)
  exact ⟨List.drop_suffix _ _, hvalue⟩

theorem readNumber_sound {number : N → Bool}
    (hnumber : ∀ text value, Numeral.parse text = some value → number value = true)
    {input rest : Text} {document : Document Text N}
    (h : readNumber input = some (document, rest)) :
    rest <:+ input ∧ document.every (sound number) = true := by
  rw [readNumber, Option.map_eq_some_iff] at h
  obtain ⟨value, hvalue, hsame⟩ := h
  obtain ⟨rfl, rfl⟩ := Prod.mk.inj hsame
  refine ⟨List.dropWhile_suffix _, ?_⟩
  rw [Document.every]
  exact hnumber _ value hvalue

omit [Numeral N] in
theorem strict_sound {number : N → Bool} {members : List (Text × Document Text N)}
    (hmembers : ∀ member ∈ members, apart member.1 = true ∧ member.2.every (sound number) = true)
    {document : Document Text N} (h : strict members = some document) :
    document.every (sound number) = true := by
  rw [strict] at h
  split_ifs at h with hnodup
  obtain rfl := Option.some.inj h
  rw [Document.every_object]
  exact ⟨decide_eq_true hnodup, hmembers⟩

theorem tail_of_skip {c : CodePoint} {input rest : Text} (h : skip input = c :: rest) :
    rest <:+ input := (List.suffix_cons c rest).trans (h ▸ skip_suffix input)

section Sound

variable {number : N → Bool}

/-- What a strict reader finds at a place of the input, and what it leaves, with one fuel. -/
structure ReadsSound (number : N → Bool) (fuel : ℕ) : Prop where
  value : ∀ {input rest : Text} {document : Document Text N}, whole input = true →
    readValueBy strict fuel input = some (document, rest) →
      rest <:+ input ∧ document.every (sound number) = true
  items : ∀ {input rest : Text} {items : List (Document Text N)}, whole input = true →
    readItemsBy strict fuel input = some (items, rest) →
      rest <:+ input ∧ ∀ item ∈ items, item.every (sound number) = true
  members : ∀ {input rest : Text} {members : List (Text × Document Text N)}, whole input = true →
    readMembersBy strict fuel input = some (members, rest) →
      rest <:+ input ∧ ∀ member ∈ members, apart member.1 = true ∧
        member.2.every (sound number) = true

theorem readItemsBy_sound {fuel : ℕ} (h : ReadsSound number fuel) {input rest : Text}
    {items : List (Document Text N)} (hinput : whole input = true)
    (hread : readItemsBy strict (fuel + 1) input = some (items, rest)) :
    rest <:+ input ∧ ∀ item ∈ items, item.every (sound number) = true := by
  rw [readItemsBy] at hread
  obtain ⟨⟨item, behind⟩, hitem, hread⟩ := Option.bind_eq_some_iff.mp hread
  obtain ⟨hbehind, hsound⟩ := h.value hinput hitem
  dsimp only at hread
  split at hread
  · cases hread
  · next c left hskip =>
    have hleft : left <:+ input := (tail_of_skip hskip).trans hbehind
    split_ifs at hread
    · obtain ⟨rfl, rfl⟩ := Prod.mk.inj (Option.some.inj hread)
      exact ⟨hleft, List.forall_mem_cons.mpr ⟨hsound, fun _ hmem => (by cases hmem)⟩⟩
    · obtain ⟨⟨later, last⟩, hlater, hsame⟩ := Option.map_eq_some_iff.mp hread
      obtain ⟨rfl, rfl⟩ := Prod.mk.inj hsame
      obtain ⟨hlast, hitems⟩ := h.items (whole_suffix hleft hinput) hlater
      exact ⟨hlast.trans hleft, List.forall_mem_cons.mpr ⟨hsound, hitems⟩⟩

theorem readMembersBy_sound {fuel : ℕ} (h : ReadsSound number fuel) {input rest : Text}
    {members : List (Text × Document Text N)} (hinput : whole input = true)
    (hread : readMembersBy strict (fuel + 1) input = some (members, rest)) :
    rest <:+ input ∧ ∀ member ∈ members, apart member.1 = true ∧
      member.2.every (sound number) = true := by
  rw [readMembersBy] at hread
  split at hread
  · cases hread
  next c behind hskip =>
  split_ifs at hread
  obtain ⟨⟨key, afterKey⟩, hkey, hread⟩ := Option.bind_eq_some_iff.mp hread
  have hbehind : behind <:+ input := tail_of_skip hskip
  obtain ⟨hafter, hapart⟩ := readText_apart (whole_suffix hbehind hinput) hkey
  dsimp only at hread
  split at hread
  · cases hread
  next d left hcolon =>
  split_ifs at hread
  obtain ⟨⟨value, afterValue⟩, hvalue, hread⟩ := Option.bind_eq_some_iff.mp hread
  have hleft : left <:+ input :=
    ((tail_of_skip hcolon).trans hafter).trans hbehind
  obtain ⟨hrest, hsound⟩ := h.value (whole_suffix hleft hinput) hvalue
  dsimp only at hread
  split at hread
  · cases hread
  next e last hend =>
  have hlast : last <:+ input :=
    ((tail_of_skip hend).trans hrest).trans hleft
  split_ifs at hread
  · obtain ⟨rfl, rfl⟩ := Prod.mk.inj (Option.some.inj hread)
    exact ⟨hlast, List.forall_mem_cons.mpr ⟨⟨hapart, hsound⟩, fun _ hmem => (by cases hmem)⟩⟩
  · obtain ⟨⟨later, final⟩, hlater, hsame⟩ := Option.map_eq_some_iff.mp hread
    obtain ⟨rfl, rfl⟩ := Prod.mk.inj hsame
    obtain ⟨hfinal, hmembers⟩ := h.members (whole_suffix hlast hinput) hlater
    exact ⟨hfinal.trans hlast, List.forall_mem_cons.mpr ⟨⟨hapart, hsound⟩, hmembers⟩⟩

theorem readValueBy_sound (hnumber : ∀ text value, Numeral.parse text = some value →
    number value = true) {fuel : ℕ} (h : ReadsSound number fuel) {input rest : Text}
    {document : Document Text N} (hinput : whole input = true)
    (hread : readValueBy strict (fuel + 1) input = some (document, rest)) :
    rest <:+ input ∧ document.every (sound number) = true := by
  rw [readValueBy] at hread
  split at hread
  · cases hread
  next c behind hskip =>
  have hbehind : behind <:+ input := tail_of_skip hskip
  have hwhole : whole behind = true := whole_suffix hbehind hinput
  have hstart : c :: behind <:+ input := hskip ▸ skip_suffix input
  split_ifs at hread
  · -- A string.
    obtain ⟨⟨text, left⟩, htext, hsame⟩ := Option.map_eq_some_iff.mp hread
    obtain ⟨rfl, rfl⟩ := Prod.mk.inj hsame
    obtain ⟨hleft, hapart⟩ := readText_apart hwhole htext
    exact ⟨hleft.trans hbehind, by rw [Document.every]; exact hapart⟩
  · -- A list, which may be empty.
    split at hread
    · cases hread
    next d left hopen =>
    split_ifs at hread
    · obtain ⟨rfl, rfl⟩ := Prod.mk.inj (Option.some.inj hread)
      refine ⟨(tail_of_skip hopen).trans hbehind, ?_⟩
      exact Document.every_list.mpr fun _ hmem => (by cases hmem)
    · obtain ⟨⟨items, last⟩, hitems, hsame⟩ := Option.map_eq_some_iff.mp hread
      obtain ⟨rfl, rfl⟩ := Prod.mk.inj hsame
      obtain ⟨hlast, hsound⟩ := h.items hwhole hitems
      exact ⟨hlast.trans hbehind, Document.every_list.mpr hsound⟩
  · -- An object, which may be empty.
    split at hread
    · cases hread
    next d left hopen =>
    split_ifs at hread
    · obtain ⟨rfl, rfl⟩ := Prod.mk.inj (Option.some.inj hread)
      refine ⟨(tail_of_skip hopen).trans hbehind, ?_⟩
      exact Document.every_object.mpr ⟨rfl, fun _ hmem => (by cases hmem)⟩
    · obtain ⟨⟨members, last⟩, hmembers, hread⟩ := Option.bind_eq_some_iff.mp hread
      obtain ⟨value, hbuild, hsame⟩ := Option.map_eq_some_iff.mp hread
      obtain ⟨rfl, rfl⟩ := Prod.mk.inj hsame
      obtain ⟨hlast, hsound⟩ := h.members hwhole hmembers
      exact ⟨hlast.trans hbehind, strict_sound hsound hbuild⟩
  -- One of the three words, or a number.
  · obtain ⟨hleft, hsound⟩ := readWord_sound (by rw [Document.every]) hread
    exact ⟨hleft.trans hstart, hsound⟩
  · obtain ⟨hleft, hsound⟩ := readWord_sound (by rw [Document.every]) hread
    exact ⟨hleft.trans hstart, hsound⟩
  · obtain ⟨hleft, hsound⟩ := readWord_sound (by rw [Document.every]) hread
    exact ⟨hleft.trans hstart, hsound⟩
  · obtain ⟨hleft, hsound⟩ := readNumber_sound hnumber hread
    exact ⟨hleft.trans hstart, hsound⟩

theorem readsSound (hnumber : ∀ text value, Numeral.parse text = some value →
    number value = true) (fuel : ℕ) : ReadsSound number fuel := by
  induction fuel with
  | zero => exact ⟨fun _ h => (nomatch h), fun _ h => (nomatch h), fun _ h => (nomatch h)⟩
  | succ fuel ih =>
    exact ⟨readValueBy_sound hnumber ih, readItemsBy_sound ih, readMembersBy_sound ih⟩

/-- A strict reader finds no two halves of a pair next to each other and no repeated key. -/
theorem readBy_every (hnumber : ∀ text value, Numeral.parse text = some value →
    number value = true) {input : Text} (hinput : whole input = true) {document : Document Text N}
    (h : readBy strict input = some document) : document.every (sound number) = true := by
  rw [readBy] at h
  obtain ⟨⟨found, rest⟩, hread, h⟩ := Option.bind_eq_some_iff.mp h
  dsimp only at h
  split_ifs at h
  obtain rfl := Option.some.inj h
  exact ((readsSound hnumber _).value hinput hread).2

end Sound

/-- A document that a strict reader found is read back from its text with sorted keys. -/
theorem readBy_sorted [DecidableEq N] {format : Format} {document : Document Text N}
    (h : document.every (sound legible) = true) :
    readBy strict (write format (sorted document)) = some (sorted document) := by
  refine readBy_write (fun members hnodup => if_pos hnodup) ?_
  exact every_sorted nodup_keys h

/-! ### Sorted keys -/

omit [Numeral N] in
theorem sortMembers_sortMembers (members : List (Text × Document Text N)) :
    sortMembers (sortMembers members) = sortMembers members := by
  have htotal : Std.Total fun first second : Text × Document Text N => first.1 ≤ second.1 :=
    ⟨fun first second => List.le_total first.1 second.1⟩
  have htrans : IsTrans (Text × Document Text N) fun first second => first.1 ≤ second.1 :=
    ⟨fun _ _ _ => List.le_trans⟩
  exact (List.pairwise_insertionSort _ members).insertionSort_eq

omit [Numeral N] in
/-- Keys that are sorted stay as they are. -/
theorem sorted_sorted (document : Document Text N) : sorted (sorted document) = sorted document := by
  induction document using Document.induct with
  | null => rfl
  | bool value => rw [sorted_bool, sorted_bool]
  | number value => rw [sorted_number, sorted_number]
  | text value => rw [sorted_text, sorted_text]
  | list items ih =>
    rw [sorted_list, sorted_list, List.map_map]
    exact congrArg _ (List.map_congr_left ih)
  | object members ih =>
    -- The members of the sorted object are those of the object with their values sorted.
    have hsame : (sortMembers (members.map fun member => (member.1, sorted member.2))).map
        (fun member => (member.1, sorted member.2)) =
          sortMembers (members.map fun member => (member.1, sorted member.2)) := by
      conv_rhs => rw [← List.map_id (sortMembers _)]
      refine List.map_congr_left fun member hmem => ?_
      obtain ⟨other, hother, rfl⟩ := List.mem_map.mp ((sortMembers_perm _).mem_iff.mp hmem)
      exact congrArg (Prod.mk other.1) (ih other hother)
    rw [sorted_object, sorted_object, hsame, sortMembers_sortMembers]

omit [Numeral N] in
/-- A validator to which the order of the keys does not matter accepts the sorted document. -/
theorem accepts_sorted {limits : Document.Limits} {rules : Document.Rules Text N}
    (hrules : ∀ {keys keys' : List Text}, keys.Perm keys' → rules.keys keys = true →
      rules.keys keys' = true) {depth : ℕ} {document : Document Text N}
    (h : document.accepts limits rules depth = true) :
    (sorted document).accepts limits rules depth = true := by
  induction document using Document.induct generalizing depth with
  | null => exact h
  | bool value => rwa [sorted_bool]
  | number value => rwa [sorted_number]
  | text value => rwa [sorted_text]
  | list items ih =>
    rw [Document.accepts_list] at h
    rw [sorted_list, Document.accepts_list, List.length_map, List.forall_mem_map]
    exact ⟨h.1, fun item hitem => ih item hitem (h.2 item hitem)⟩
  | object members ih =>
    rw [Document.accepts_object] at h
    have hperm := sortMembers_perm (members.map fun member => (member.1, sorted member.2))
    have hkeys : ((members.map fun member => (member.1, sorted member.2)).map Prod.fst) =
        members.map Prod.fst := by
      rw [List.map_map]
      rfl
    rw [sorted_object, Document.accepts_object, hperm.length_eq, List.length_map]
    refine ⟨⟨h.1.1, hrules (hkeys ▸ (hperm.map Prod.fst).symm) h.1.2⟩, fun member hmem => ?_⟩
    obtain ⟨other, hother, rfl⟩ := List.mem_map.mp (hperm.mem_iff.mp hmem)
    exact ⟨(h.2 other hother).1, ih other hother (h.2 other hother).2⟩

end Ficc.JsonText
