import BuildLog.Proofs.View.Mirror
import Mathlib.Data.List.Nodup

/-!
# Positions of sections

A view finds its sections through a table of positions, and inserting a section moves all those
behind it. Whatever changes a view is given, of sections it has or not, and even if an id comes
twice, each id that was ever appended has a position, and a section with that id stands there.

* `getElem?_record`: recording enters the last place of each id.
* `Located.appendSection`: insertion leaves the table right.
* `Located.changesOnly_modify`: a section is changed through the table, and no other one.
* `run_located`: what the table says after any changes and folds.
-/

namespace BuildLog

/-- The id of the section that a change appends. -/
def Change.appended? : Change → Option Nat
  | .appendSection id _ => some id
  | _ => none

namespace View

/-- What can be done to a view. -/
inductive Action where
  | change (c : Change)
  | commit (b : Batch)
  | toggle (id : Nat)
  | toggleAll

def act (v : View) : Action → View
  | .change c => v.apply c
  | .commit b => v.commit b
  | .toggle id => (v.toggle id).1
  | .toggleAll => v.toggleAll

def run (v : View) (actions : List Action) : View := actions.foldl act v

/-- The changes that an action applies. -/
def Action.changes : Action → List Change
  | .change c => [c]
  | .commit b => b.changes
  | .toggle _ | .toggleAll => []

/-- The ids of the sections that some actions append, in this order. -/
def appendedIds (actions : List Action) : List Nat :=
  (actions.flatMap Action.changes).filterMap Change.appended?

/-- The ids of the sections, in the order in which they are displayed. -/
def ids (v : View) : List Nat := v.entries.toList.map (·.id)

/-! ## Recording positions -/

theorem record_cons (positions : Std.HashMap Nat Nat) (start : Nat) (e : Entry)
    (entries : List Entry) :
    record positions start (e :: entries) =
      record (positions.insert e.id start) (start + 1) entries := rfl

/-- Recording enters a place for the id of every entry, and leaves all other ids alone. -/
theorem getElem?_record (positions : Std.HashMap Nat Nat) (start : Nat) (entries : List Entry)
    (id : Nat) :
    (∃ i, (entries.map (·.id))[i]? = some id ∧
        (record positions start entries)[id]? = some (start + i)) ∨
      (id ∉ entries.map (·.id) ∧ (record positions start entries)[id]? = positions[id]?) := by
  induction entries generalizing positions start with
  | nil => exact .inr ⟨by simp, rfl⟩
  | cons e entries ih =>
    rw [record_cons]
    obtain ⟨i, hId, hPos⟩ | ⟨hOther, hPos⟩ := ih (positions.insert e.id start) (start + 1)
    · exact .inl ⟨i + 1, by simpa using hId, by rw [hPos, Nat.add_right_comm, Nat.add_assoc]⟩
    · rw [hPos, Std.HashMap.getElem?_insert]
      by_cases hHere : e.id = id
      · exact .inl ⟨0, by simp [hHere], by simp [hHere]⟩
      · refine .inr ⟨?_, by simp [hHere]⟩
        rw [List.map_cons, List.mem_cons, not_or]
        exact ⟨Ne.symm hHere, hOther⟩

/-! ## Inserting a section -/

/-- An entry is inserted between the entries in front of its place and the rest. -/
theorem toList_insertAt {entries : Array Entry} {front rest : List Entry}
    (h : entries.toList = front ++ rest) (e : Entry) :
    (insertAt entries front.length e).toList = front ++ e :: rest := by
  have hSize : entries.size = front.length + rest.length := by
    rw [← Array.length_toList, h, List.length_append]
  have hInsert (front : List Entry) : (front ++ rest).insertIdx front.length e =
      front ++ e :: rest := by
    induction front with
    | nil => rfl
    | cons x front ih => simpa using ih
  unfold insertAt
  split
  · rw [Array.toList_insertIdx, h, hInsert]
  · next hEnd =>
    have hRest : rest = [] := List.length_eq_zero_iff.mp (by omega)
    simp [h, hRest]

/-- A section that is inserted behind some entries moves all others one place on. -/
theorem appendSection_of_split {v : View} {front rest : List Entry} {after : Option Nat}
    (hSplit : v.entries.toList = front ++ rest) (hPoint : v.insertionPoint after = front.length)
    (id : Nat) :
    (v.appendSection id after).entries.toList = front ++ { id := id } :: rest ∧
      (v.appendSection id after).positions =
        record v.positions front.length ({ id := id } :: rest) := by
  have hEntries := toList_insertAt hSplit { id := id }
  have hMoved : ((insertAt v.entries front.length { id := id }).extract front.length
      (insertAt v.entries front.length { id := id }).size).toList = { id := id } :: rest := by
    rw [Array.toList_extract, List.extract_eq_take_drop, hEntries, List.drop_left,
      List.take_of_length_le]
    rw [← Array.length_toList, hEntries]
    simp
  unfold appendSection
  rw [hPoint]
  exact ⟨hEntries, congrArg (record v.positions front.length) hMoved⟩

/-! ## Tables that are right -/

/-- The table of positions is right for a view to which sections with some ids have been
appended. -/
structure Located (v : View) (appended : List Nat) : Prop where
  stands : ∀ id pos : Nat, v.positions[id]? = some pos → v.ids[pos]? = some id
  recorded : ∀ id ∈ appended, ∃ pos : Nat, v.positions[id]? = some pos
  ids_perm : v.ids.Perm appended

namespace Located

variable {v w : View} {appended : List Nat}

theorem start : Located {} [] := ⟨by simp, by simp, .nil⟩

theorem mem_appended (h : v.Located appended) {id pos : Nat} (hPos : v.positions[id]? = some pos) :
    id ∈ appended :=
  h.ids_perm.mem_iff.mp (List.mem_of_getElem? (h.stands id pos hPos))

theorem positions_eq_none (h : v.Located appended) {id : Nat} (hNew : id ∉ appended) :
    v.positions[id]? = none :=
  Option.eq_none_iff_forall_ne_some.mpr fun _ hPos => hNew (h.mem_appended hPos)

theorem exists_entry (h : v.Located appended) {id pos : Nat} (hPos : v.positions[id]? = some pos) :
    ∃ e, v.entries[pos]? = some e ∧ e.id = id := by
  have hStands := h.stands id pos hPos
  rw [ids, List.getElem?_map, Array.getElem?_toList] at hStands
  exact Option.map_eq_some_iff.mp hStands

/-- Only the ids and the positions count. -/
theorem congr (h : v.Located appended) (hIds : w.ids = v.ids) (hPositions : w.positions = v.positions) :
    w.Located appended where
  stands := by
    rw [hIds, hPositions]
    exact h.stands
  recorded := by
    rw [hPositions]
    exact h.recorded
  ids_perm := hIds ▸ h.ids_perm

/-- A section goes directly behind a known one, and to the end otherwise. -/
theorem point_cases (h : v.Located appended) (after : Option Nat) :
    (∃ a front e rest, after = some a ∧ a ∈ appended ∧ v.positions[a]? = some front.length ∧
        e.id = a ∧ v.entries.toList = front ++ e :: rest ∧
        v.insertionPoint after = front.length + 1) ∨
      ((∀ a ∈ after, a ∉ appended) ∧ v.insertionPoint after = v.entries.size) := by
  cases hFound : after.bind (v.positions[·]?) with
  | some pos =>
    obtain ⟨a, rfl, hPos⟩ := Option.bind_eq_some_iff.mp hFound
    obtain ⟨e, he, hId⟩ := h.exists_entry hPos
    obtain ⟨hLt, hGet⟩ := List.getElem?_eq_some_iff.mp ((Array.getElem?_toList ..).trans he)
    have hLength : (v.entries.toList.take pos).length = pos := List.length_take_of_le (Nat.le_of_lt hLt)
    refine .inl ⟨a, v.entries.toList.take pos, e, v.entries.toList.drop (pos + 1), rfl,
      h.mem_appended hPos, by rw [hLength, hPos], hId, ?_, ?_⟩
    · rw [← hGet, ← List.drop_eq_getElem_cons hLt, List.take_append_drop]
    · rw [hLength, insertionPoint, hFound]
  | none =>
    refine .inr ⟨?_, by rw [insertionPoint, hFound]⟩
    rintro a ha hKnown
    obtain rfl := Option.mem_def.mp ha
    obtain ⟨pos, hPos⟩ := h.recorded a hKnown
    rw [Option.bind_some, hPos] at hFound
    cases hFound

/-- A section goes behind some of the entries and in front of the others. -/
theorem exists_split (h : v.Located appended) (after : Option Nat) :
    ∃ front rest, v.entries.toList = front ++ rest ∧ v.insertionPoint after = front.length := by
  obtain ⟨a, front, e, rest, -, -, -, -, hEntries, hPoint⟩ | ⟨-, hPoint⟩ := h.point_cases after
  · exact ⟨front ++ [e], rest, by simp [hEntries], by simp [hPoint]⟩
  · exact ⟨v.entries.toList, [], by simp, by simp [hPoint]⟩

/-- A section that is inserted gets its place, and moves those behind it on by one. -/
theorem appendSection (h : v.Located appended) (id : Nat) (after : Option Nat) :
    (v.appendSection id after).Located (appended ++ [id]) := by
  obtain ⟨front, rest, hSplit, hPoint⟩ := h.exists_split after
  obtain ⟨hEntries, hPositions⟩ := appendSection_of_split hSplit hPoint id
  have hOld : v.ids = front.map (·.id) ++ rest.map (·.id) := by simp [ids, hSplit]
  have hNew : (v.appendSection id after).ids = front.map (·.id) ++ id :: rest.map (·.id) := by
    simp [ids, hEntries]
  have hTable := getElem?_record v.positions front.length ({ id := id } :: rest)
  rw [← hPositions] at hTable
  refine ⟨?_, ?_, ?_⟩
  · intro id' pos hPos
    rw [hNew]
    obtain ⟨i, hId, hMoved⟩ | ⟨hOther, hKept⟩ := hTable id'
    · obtain rfl := Option.some.inj (hMoved.symm.trans hPos)
      rw [List.getElem?_append_right (by simp)]
      simpa using hId
    · -- The entry stands in front of the new one, as it has not been moved.
      have hStands := h.stands id' pos (hKept ▸ hPos)
      rw [hOld] at hStands
      by_cases hFront : pos < (front.map (·.id)).length
      · rw [List.getElem?_append_left hFront] at hStands ⊢
        exact hStands
      · rw [List.getElem?_append_right (Nat.le_of_not_lt hFront)] at hStands
        exact absurd (List.mem_cons_of_mem id (List.mem_of_getElem? hStands)) hOther
  · intro id' hMem
    obtain ⟨i, -, hMoved⟩ | ⟨hOther, hKept⟩ := hTable id'
    · exact ⟨_, hMoved⟩
    · rw [hKept]
      obtain hMem | hMem := List.mem_append.mp hMem
      · exact h.recorded id' hMem
      · exact absurd (List.mem_singleton.mp hMem ▸ List.mem_cons_self) hOther
  · rw [hNew]
    refine List.perm_middle.trans ?_
    rw [← hOld]
    exact (h.ids_perm.cons id).trans (List.perm_append_singleton id appended).symm

end Located

/-! ## Changing a section -/

/-- Nothing but the section with an id is different, if there is one, and it is what `f` makes of
it. -/
structure ChangesOnly (id : Nat) (f : Entry → Entry) (v w : View) : Prop where
  ids_eq : w.ids = v.ids
  positions_eq : w.positions = v.positions
  others : ∀ (i : Nat) (e : Entry), v.entries[i]? = some e → e.id ≠ id → w.entries[i]? = some e
  found : ∀ other, w.get? other = if other = id then (v.get? other).map f else v.get? other

namespace Located

variable {v : View} {appended : List Nat}

theorem get?_eq_none (h : v.Located appended) {id : Nat} (hNew : id ∉ appended) :
    v.get? id = none := by
  simp [get?, h.positions_eq_none hNew]

theorem exists_get? (h : v.Located appended) {id : Nat} (hKnown : id ∈ appended) :
    ∃ pos e, v.positions[id]? = some pos ∧ v.entries[pos]? = some e ∧ e.id = id ∧
      v.get? id = some e := by
  obtain ⟨pos, hPos⟩ := h.recorded id hKnown
  obtain ⟨e, he, hId⟩ := h.exists_entry hPos
  exact ⟨pos, e, hPos, he, hId, by simp [get?, hPos, he]⟩

theorem changesOnly_modify (h : v.Located appended) (id : Nat) {f : Entry → Entry}
    (hf : ∀ e, (f e).id = e.id) : ChangesOnly id f v (v.modify id f) := by
  cases hPos : v.positions[id]? with
  | none =>
    rw [modify_of_unknown hPos]
    refine ⟨rfl, rfl, fun _ _ he _ => he, fun other => ?_⟩
    split
    · next hSame => simp [get?, hSame, hPos]
    · rfl
  | some pos =>
    have hEntries : (v.modify id f).entries = v.entries.modify pos f := by simp [modify, hPos]
    have hPositions : (v.modify id f).positions = v.positions := by simp [modify, hPos]
    obtain ⟨found, hFound, hId⟩ := h.exists_entry hPos
    refine ⟨?_, hPositions, ?_, ?_⟩
    · apply List.ext_getElem?
      intro i
      simp only [ids, List.getElem?_map, Array.getElem?_toList, hEntries, Array.getElem?_modify]
      split
      · simp [Function.comp_def, hf]
      · rfl
    · intro i e he hOther
      rw [hEntries, Array.getElem?_modify, if_neg, he]
      rintro rfl
      obtain rfl := Option.some.inj (hFound.symm.trans he)
      exact hOther hId
    · intro other
      simp only [get?, hPositions, hEntries]
      by_cases hSame : other = id
      · rw [if_pos hSame, hSame, hPos]
        simp [Array.getElem?_modify]
      · rw [if_neg hSame]
        cases hOther : v.positions[other]? with
        | none => rfl
        | some pos' =>
          -- Two ids have their sections at different places.
          have hNe : pos ≠ pos' := by
            rintro rfl
            obtain ⟨e, he, hId'⟩ := h.exists_entry hOther
            obtain rfl := Option.some.inj (hFound.symm.trans he)
            exact hSame (hId'.symm.trans hId)
          simp [Array.getElem?_modify, hNe]

theorem changesOnly_apply (h : v.Located appended) {c : Change} (hAbout : c.begins = false) :
    ChangesOnly c.target (·.tell c) v (v.apply c) := by
  rw [apply_eq_modify v hAbout]
  exact h.changesOnly_modify c.target fun e => by cases c <;> rfl

end Located

/-- What folding or unfolding makes of a section: nothing, if it has no toggle. -/
def Entry.flip (e : Entry) : Entry := if e.hasToggle then { e with isOpen := !e.isOpen } else e

namespace Located

variable {v : View} {appended : List Nat}

/-- Folding a section changes its entry alone, and says whether it has a toggle. -/
theorem changesOnly_toggle (h : v.Located appended) (id : Nat) :
    ChangesOnly id Entry.flip v (v.toggle id).1 ∧
      (v.toggle id).2 = (v.get? id).any (·.hasToggle) := by
  have hSame (hKept : (v.get? id).map Entry.flip = v.get? id) : ChangesOnly id Entry.flip v v := by
    refine ⟨rfl, rfl, fun _ _ he _ => he, fun other => ?_⟩
    split
    · next hOther => rw [hOther, hKept]
    · rfl
  cases hGet : v.get? id with
  | none =>
    have hToggle : v.toggle id = (v, false) := by simp [toggle, hGet]
    rw [hToggle]
    exact ⟨hSame (by simp [hGet]), rfl⟩
  | some e =>
    cases hHas : e.hasToggle with
    | false =>
      have hToggle : v.toggle id = (v, false) := by simp [toggle, hGet, hHas]
      rw [hToggle]
      exact ⟨hSame (by simp [hGet, Entry.flip, hHas]), by simp [hHas]⟩
    | true =>
      have hToggle : v.toggle id = (v.modify id fun e => { e with isOpen := !e.isOpen }, true) := by
        simp [toggle, hGet, hHas]
      have hOnly := h.changesOnly_modify id (f := fun e => { e with isOpen := !e.isOpen })
        fun _ => rfl
      rw [hToggle]
      refine ⟨⟨hOnly.ids_eq, hOnly.positions_eq, hOnly.others, fun other => ?_⟩, by simp [hHas]⟩
      rw [hOnly.found]
      split
      · next hOther => simp [hOther, hGet, Entry.flip, hHas]
      · rfl

/-! ## Runs of a view -/

theorem apply (h : v.Located appended) (c : Change) :
    (v.apply c).Located (appended ++ c.appended?.toList) := by
  cases hBegins : c.begins with
  | true =>
    cases c with
    | appendSection id after => exact h.appendSection id after
    | appendLine | setOpen | setAttributes | attachToggle => cases hBegins
  | false =>
    have hNone : c.appended? = none := by
      cases c with
      | appendSection => cases hBegins
      | appendLine | setOpen | setAttributes | attachToggle => rfl
    have hOnly := h.changesOnly_apply hBegins
    simpa [hNone] using h.congr hOnly.ids_eq hOnly.positions_eq

theorem foldl_apply (h : v.Located appended) (changes : List Change) :
    (changes.foldl View.apply v).Located (appended ++ changes.filterMap Change.appended?) := by
  induction changes generalizing v appended with
  | nil => simpa using h
  | cons c changes ih =>
    have hRest := ih (h.apply c)
    rw [List.append_assoc] at hRest
    cases hAppended : c.appended? <;> simpa [hAppended] using hRest

theorem toggleAll (h : v.Located appended) : v.toggleAll.Located appended := by
  unfold View.toggleAll
  split
  · refine h.congr ?_ rfl
    simp only [ids, Array.toList_map, List.map_map]
    refine List.map_congr_left fun e _ => ?_
    simp only [Function.comp_apply]
    split <;> rfl
  · exact h

theorem act (h : v.Located appended) (a : Action) :
    (v.act a).Located (appended ++ a.changes.filterMap Change.appended?) := by
  cases a with
  | change c => exact h.foldl_apply [c]
  | commit b =>
    have hCounted : Located { v with commits := v.commits + 1 } appended := h.congr rfl rfl
    exact hCounted.foldl_apply b.changes
  | toggle id =>
    have hOnly := (h.changesOnly_toggle id).1
    simpa [View.act, Action.changes] using h.congr hOnly.ids_eq hOnly.positions_eq
  | toggleAll => simpa [View.act, Action.changes] using h.toggleAll

theorem run (h : v.Located appended) (actions : List Action) :
    (v.run actions).Located (appended ++ appendedIds actions) := by
  induction actions generalizing v appended with
  | nil => simpa [View.run, appendedIds] using h
  | cons a actions ih =>
    have hRest := ih (h.act a)
    rw [List.append_assoc] at hRest
    simpa [View.run, appendedIds] using hRest

/-- If no id comes twice, the table is the inverse of the order of the sections. -/
theorem position_iff (h : v.Located appended) (hOnce : appended.Nodup) (id pos : Nat) :
    v.positions[id]? = some pos ↔ ∃ e, v.entries[pos]? = some e ∧ e.id = id := by
  refine ⟨h.exists_entry, ?_⟩
  rintro ⟨e, he, rfl⟩
  have hHere : v.ids[pos]? = some e.id := by simp [ids, he]
  obtain ⟨pos', hPos⟩ := h.recorded e.id (h.ids_perm.mem_iff.mp (List.mem_of_getElem? hHere))
  have hThere := h.stands e.id pos' hPos
  have hLt : pos' < v.ids.length := (List.getElem?_eq_some_iff.mp hThere).1
  rw [hPos, (List.getElem?_inj hLt (h.ids_perm.nodup_iff.mpr hOnce)).mp (hThere.trans hHere.symm)]

end Located

/-- **The table of positions is always right**, whatever changes and batches of changes a view has
been given and whatever has been folded. Each id that was ever appended has a position, and the
section found there has that id; no other id has one, and changes about it do nothing. A change or
a fold is made to the section that is found and to no other one. A new section goes directly behind
the one it is to follow, if that one is known, and otherwise to the end, and all others stay as they
are and in their order. If no id comes twice, the table is the inverse of the order of the
sections. -/
theorem run_located (actions : List Action) :
    let v := run {} actions
    (∀ id ∈ appendedIds actions, ∃ (pos : Nat) (e : Entry), v.positions[id]? = some pos ∧
      v.entries[pos]? = some e ∧ e.id = id ∧ v.get? id = some e) ∧
    (∀ id, id ∉ appendedIds actions → v.positions[id]? = none ∧ v.get? id = none ∧
      v.toggle id = (v, false) ∧ ∀ c : Change, c.begins = false → c.target = id → v.apply c = v) ∧
    (∀ c : Change, c.begins = false → ChangesOnly c.target (·.tell c) v (v.apply c)) ∧
    (∀ id, ChangesOnly id Entry.flip v (v.toggle id).1 ∧
      (v.toggle id).2 = (v.get? id).any (·.hasToggle)) ∧
    (∀ id after,
      (∀ a ∈ after, a ∈ appendedIds actions → ∃ front e rest,
        v.entries.toList = front ++ e :: rest ∧ v.positions[a]? = some front.length ∧ e.id = a ∧
        (v.appendSection id after).entries.toList = front ++ e :: { id := id } :: rest) ∧
      ((∀ a ∈ after, a ∉ appendedIds actions) →
        (v.appendSection id after).entries.toList = v.entries.toList ++ [{ id := id }])) ∧
    ((appendedIds actions).Nodup → ∀ id pos : Nat,
      v.positions[id]? = some pos ↔ ∃ e, v.entries[pos]? = some e ∧ e.id = id) := by
  intro v
  have h : v.Located (appendedIds actions) := Located.start.run actions
  refine ⟨fun id => h.exists_get?, ?_, fun c => h.changesOnly_apply, h.changesOnly_toggle, ?_,
    h.position_iff⟩
  · intro id hNew
    have hPos := h.positions_eq_none hNew
    refine ⟨hPos, h.get?_eq_none hNew, by simp [toggle, h.get?_eq_none hNew], ?_⟩
    rintro c hAbout rfl
    rw [apply_eq_modify v hAbout, modify_of_unknown hPos]
  · intro id after
    obtain ⟨a, front, e, rest, rfl, hKnown, hPos, hId, hEntries, hPoint⟩ | ⟨hNew, hPoint⟩ :=
      h.point_cases after
    · have hSplit : v.entries.toList = (front ++ [e]) ++ rest := by simp [hEntries]
      have hBehind : v.insertionPoint (some a) = (front ++ [e]).length := by simp [hPoint]
      have hAppend := (appendSection_of_split hSplit hBehind id).1
      refine ⟨?_, fun hNew => absurd hKnown (hNew a rfl)⟩
      rintro a' ha' -
      obtain rfl := Option.some.inj ha'
      exact ⟨front, e, rest, hEntries, hPos, hId, by simpa using hAppend⟩
    · refine ⟨fun a ha hKnown => absurd hKnown (hNew a ha), fun _ => ?_⟩
      have hEnd : v.insertionPoint after = v.entries.toList.length := by simp [hPoint]
      exact (appendSection_of_split (List.append_nil _).symm hEnd id).1

/-- A section that is inserted between two others in a batch stands at one place, and an id that was
never appended at none. -/
theorem run_located_of_three_sections :
    let actions : List Action := [.change (.appendSection 0 none),
      .commit ⟨none, [], [.appendSection 2 (some 0), .appendSection 1 (some 0)]⟩, .toggle 1]
    let v := run {} actions
    ((appendedIds actions).Nodup ∧ 1 ∈ appendedIds actions ∧ 7 ∉ appendedIds actions) ∧
      (∃ pos : Nat, v.positions[1]? = some pos ∧
        ∀ (other : Nat) (e : Entry), v.entries[other]? = some e → e.id = 1 → other = pos) ∧
      v.get? 7 = none ∧ v.toggle 7 = (v, false) := by
  intro actions v
  have hOnce : (appendedIds actions).Nodup := by decide
  have hKnown : 1 ∈ appendedIds actions := by decide
  have hNew : 7 ∉ appendedIds actions := by decide
  obtain ⟨hFound, hUnknown, -, -, -, hInverse⟩ := run_located actions
  obtain ⟨pos, -, hPos, -⟩ := hFound 1 hKnown
  obtain ⟨-, hGet, hToggle, -⟩ := hUnknown 7 hNew
  refine ⟨⟨hOnce, hKnown, hNew⟩, ⟨pos, hPos, fun other e he hId => ?_⟩, hGet, hToggle⟩
  have hOther := (hInverse hOnce 1 other).mpr ⟨e, he, hId⟩
  exact Option.some.inj (hOther.symm.trans hPos)

end View

end BuildLog
