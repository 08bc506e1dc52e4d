import BuildLog.Proofs.Tree.Order
import BuildLog.View
import Std.Data.HashMap.Lemmas

/-!
# Views that mirror a tree

A view mirrors the sections of a tree when its entries stand for them one by one, each at its place
and under its id. Only whether an entry is folded is left to the reader.

* `Mirrors.edit`: the changes that tell an edit make the view mirror the edited sections.
* `Mirrors.append`: so does the change that tells a new section.
* `Mirrors.toggle`, `Mirrors.toggleAll`: folding changes nothing else.
-/

namespace BuildLog

namespace View

/-! ## Changes of one entry -/

/-- What a change makes of the entry it is about. -/
def Entry.tell (e : Entry) : Change → Entry
  | .appendSection _ _ => e
  | .appendLine _ line => { e with lines := e.lines.push line }
  | .setOpen _ isOpen => { e with isOpen := isOpen }
  | .setAttributes _ attributes => { e with attributes := attributes }
  | .attachToggle _ => { e with hasToggle := true }

/-- A change to a section that is there is a change to its entry. -/
theorem apply_eq_modify (v : View) {c : Change} (h : c.begins = false) :
    v.apply c = v.modify c.target (·.tell c) := by
  cases c with
  | appendSection => simp [Change.begins] at h
  | appendLine | setOpen | setAttributes | attachToggle => rfl

theorem array_modify_id {α : Type} (xs : Array α) (i : Nat) : xs.modify i (fun x => x) = xs := by
  apply Array.ext_getElem?
  intro j
  simp [Array.getElem?_modify]

theorem modify_id (v : View) (id : Nat) : v.modify id (fun e => e) = v := by
  unfold modify
  split
  · rw [array_modify_id]
  · rfl

theorem modify_modify (v : View) (id : Nat) (f g : Entry → Entry) :
    (v.modify id f).modify id g = v.modify id (fun e => g (f e)) := by
  cases hPos : v.positions[id]? with
  | none => simp [modify, hPos]
  | some pos =>
    have hTwice : (v.entries.modify pos f).modify pos g =
        v.entries.modify pos fun e => g (f e) := by
      apply Array.ext_getElem?
      intro i
      by_cases hi : pos = i <;> simp [Array.getElem?_modify, hi, Function.comp_def]
    simp [modify, hPos, hTwice]

/-- What some entry has it keeps, if the change of an entry keeps it. -/
theorem exists_mem_modify {v : View} {p : Entry → Prop} (h : ∃ e ∈ v.entries, p e) (id : Nat)
    {f : Entry → Entry} (hf : ∀ e, p e → p (f e)) : ∃ e ∈ (v.modify id f).entries, p e := by
  unfold modify
  split
  · next pos _ =>
    obtain ⟨e, he, hp⟩ := h
    obtain ⟨i, hi⟩ := Array.getElem?_of_mem he
    by_cases hPos : pos = i
    · have hChanged : (v.entries.modify pos f)[i]? = some (f e) := by
        simp [Array.getElem?_modify, hPos, hi]
      exact ⟨f e, Array.mem_of_getElem? hChanged, hf e hp⟩
    · have hKept : (v.entries.modify pos f)[i]? = some e := by
        simp [Array.getElem?_modify, hPos, hi]
      exact ⟨e, Array.mem_of_getElem? hKept, hp⟩
  · exact h

/-- Changes of one section change its entry only. -/
theorem foldl_apply_eq_modify {id : Nat} {changes : List Change}
    (h : ∀ c ∈ changes, c.target = id ∧ c.begins = false) (v : View) :
    changes.foldl apply v = v.modify id fun e => changes.foldl Entry.tell e := by
  induction changes generalizing v with
  | nil => exact (modify_id v id).symm
  | cons c changes ih =>
    obtain ⟨hTarget, hBegins⟩ := h c List.mem_cons_self
    rw [List.foldl_cons, ih (fun d hd => h d (List.mem_cons_of_mem c hd)),
      apply_eq_modify v hBegins, hTarget, modify_modify]
    rfl

/-- An entry shows a section. Unless a reader has folded sections, it is open exactly when the
section is. -/
structure Entry.Mirrors (untouched : Prop) (e : Entry) (s : Section) : Prop where
  id : e.id = s.id
  attributes : e.attributes = s.attributes
  lines : e.lines = s.lines
  hasToggle : e.hasToggle = s.attributes.multiline
  isOpen : untouched → e.isOpen = s.isOpen

variable {untouched : Prop}

theorem Entry.mirrors_new (id : Nat) :
    Entry.Mirrors untouched { id := id } { id := id } :=
  ⟨rfl, rfl, rfl, rfl, fun _ => rfl⟩

/-- What tells an edit makes an entry show the edited section. -/
theorem Entry.Mirrors.edit {entry : Entry} {s : Section} (h : entry.Mirrors untouched s)
    {e : Section.Edit} (he : e.ByCursor) :
    ((e.changes s).foldl Entry.tell entry).Mirrors untouched (e.apply s) := by
  cases he with
  | assignKind code =>
    cases hKind : s.attributes.kind with
    | none =>
      simp only [Section.Edit.assignKind, hKind]
      exact ⟨h.id, rfl, h.lines, h.hasToggle, h.isOpen⟩
    | some kind =>
      simp only [Section.Edit.assignKind, hKind]
      exact h
  | detectStatus code =>
    simp only [Section.Edit.detectStatus]
    split
    · next hSame => exact ⟨h.id, h.attributes.trans hSame.symm, h.lines, h.hasToggle, h.isOpen⟩
    · exact ⟨h.id, rfl, h.lines, h.hasToggle, h.isOpen⟩
  | markMultiline =>
    simp only [Section.Edit.markMultiline]
    split
    · next hMany =>
      have hSame : { s.attributes with multiline := true } = s.attributes := by
        rw [← hMany]
      exact ⟨h.id, h.attributes.trans hSame.symm, h.lines, h.hasToggle.trans hMany, h.isOpen⟩
    · exact ⟨h.id, rfl, h.lines, rfl, h.isOpen⟩
  | write line =>
    refine ⟨h.id, h.attributes, ?_, h.hasToggle, h.isOpen⟩
    simp [Section.Edit.write, Entry.tell, h.lines]
  | close =>
    simp only [Section.Edit.close]
    split
    · next hErrored =>
      exact ⟨h.id, h.attributes, h.lines, h.hasToggle, fun hu => by simp [h.isOpen hu, hErrored]⟩
    · next hErrored =>
      exact ⟨h.id, h.attributes, h.lines, h.hasToggle, fun _ => by simp [Entry.tell, hErrored]⟩

/-! ## All entries -/

/-- Each entry stands where its id says. -/
def Indexed (v : View) : Prop :=
  ∀ id : Nat, v.positions[id]? = if id < v.entries.size then some id else none

theorem indexed_empty : Indexed {} := by
  intro id
  simp

theorem Indexed.push {v : View} (h : v.Indexed) (e : Entry) :
    Indexed { v with
      entries := v.entries.push e
      positions := v.positions.insert v.entries.size v.entries.size } := by
  intro id
  simp only [Std.HashMap.getElem?_insert, beq_iff_eq, Array.size_push, h id]
  by_cases hId : v.entries.size = id
  · simp [hId]
  · by_cases hLt : id < v.entries.size
    · simp [hId, hLt, Nat.lt_succ_of_lt hLt]
    · have hNotLt : ¬ id < v.entries.size + 1 := by omega
      simp [hId, hLt, hNotLt]

/-- The entries of a view show the sections of a tree, each at its place and under its id. -/
structure Mirrors (untouched : Prop) (v : View) (sections : Array Section) : Prop where
  placed : Section.Placed sections
  size_eq : v.entries.size = sections.size
  entry : ∀ (i : Nat) (e : Entry) (s : Section), v.entries[i]? = some e → sections[i]? = some s →
    e.Mirrors untouched s
  position : ∀ id : Nat, v.positions[id]? = if id < sections.size then some id else none

theorem mirrors_empty : Mirrors untouched {} #[] where
  placed := Section.placed_empty
  size_eq := rfl
  entry := by simp
  position := by simp

/-- Sections have their place as id, and so have the entries that mirror them. -/
theorem Mirrors.indexed {v : View} {sections : Array Section}
    (h : v.Mirrors untouched sections) : v.Indexed := by
  intro id
  rw [h.position, h.size_eq]

/-- Only its entries say what an indexed view mirrors. -/
theorem Mirrors.congr {v w : View} {sections : Array Section}
    (h : v.Mirrors untouched sections) (hIndexed : w.Indexed) (hEntries : w.entries = v.entries) :
    w.Mirrors untouched sections where
  placed := h.placed
  size_eq := by rw [hEntries, h.size_eq]
  entry := by
    rw [hEntries]
    exact h.entry
  position id := by rw [hIndexed, hEntries, h.size_eq]

/-- No entry depends on how many batches have been applied. -/
theorem Mirrors.counted {v : View} {sections : Array Section} (h : v.Mirrors untouched sections) :
    View.Mirrors untouched { v with commits := v.commits + 1 } sections :=
  ⟨h.placed, h.size_eq, h.entry, h.position⟩

/-- Changes to an entry and to its section that belong together keep the mirror. -/
theorem Mirrors.modify {v : View} {sections : Array Section} (h : v.Mirrors untouched sections)
    (id : Nat) {f : Entry → Entry} {g : Section → Section}
    (hfg : ∀ e s, sections[id]? = some s → e.Mirrors untouched s → (f e).Mirrors untouched (g s))
    (hg : ∀ s, (g s).id = s.id) :
    (v.modify id f).Mirrors untouched (sections.modify id g) := by
  have hPlaced := h.placed.modify id hg
  by_cases hId : id < sections.size
  · have hPos : v.positions[id]? = some id := by rw [h.position, if_pos hId]
    have hModify : v.modify id f = { v with entries := v.entries.modify id f } := by
      simp [View.modify, hPos]
    rw [hModify]
    refine ⟨hPlaced, by simp [h.size_eq], ?_, by simpa using h.position⟩
    intro i e s he hs
    rw [Array.getElem?_modify] at he hs
    by_cases hi : id = i
    · subst hi
      rw [if_pos rfl] at he hs
      obtain ⟨e', he', rfl⟩ := Option.map_eq_some_iff.mp he
      obtain ⟨s', hs', rfl⟩ := Option.map_eq_some_iff.mp hs
      exact hfg e' s' hs' (h.entry id e' s' he' hs')
    · rw [if_neg hi] at he hs
      exact h.entry i e s he hs
  · have hPos : v.positions[id]? = none := by rw [h.position, if_neg hId]
    have hSections : sections.modify id g = sections := by
      apply Array.ext_getElem?
      intro i
      rw [Array.getElem?_modify]
      split
      · next hi => simp [← hi, Array.getElem?_eq_none (Nat.le_of_not_lt hId)]
      · rfl
    rw [modify_of_unknown hPos, hSections]
    exact h

/-- What tells an edit makes a view mirror the edited sections. -/
theorem Mirrors.edit {v : View} {t : Tree} (h : v.Mirrors untouched t.sections) (id : Nat)
    {e : Section.Edit} (he : e.ByCursor) :
    ((t.editChanges id e).foldl apply v).Mirrors untouched (t.edit id e).sections := by
  rw [Tree.sections_edit, foldl_apply_eq_modify fun c => h.placed.editChanges he]
  refine h.modify id ?_ he.id_apply
  intro entry s hs hEntry
  rw [Tree.editChanges_of_some hs]
  exact hEntry.edit he

theorem Mirrors.insertionPoint {v : View} {sections : Array Section}
    (h : v.Mirrors untouched sections) :
    v.insertionPoint (sections.back?.map (·.id)) = sections.size := by
  obtain rfl | ⟨hSize, hLast⟩ := h.placed.back?_cases
  · simp [View.insertionPoint, h.size_eq]
  · have hPos : v.positions[sections.size - 1]? = some (sections.size - 1) := by
      rw [h.position, if_pos (by omega)]
    simp only [View.insertionPoint, hLast, Option.bind_some, hPos]
    omega

/-- A new section goes to the end of the view, too. -/
theorem Mirrors.appendSection_eq {v : View} {t : Tree} (h : v.Mirrors untouched t.sections) :
    v.appendSection t.sections.size (t.last?.map (·.id)) =
      { v with
        entries := v.entries.push { id := t.sections.size }
        positions := v.positions.insert t.sections.size t.sections.size } := by
  have hPoint : v.insertionPoint (t.last?.map (·.id)) = v.entries.size :=
    h.insertionPoint.trans h.size_eq.symm
  simp [appendSection, hPoint, insertAt, record, h.size_eq]

theorem Mirrors.append {v : View} {t : Tree} (h : v.Mirrors untouched t.sections) :
    (v.appendSection t.sections.size (t.last?.map (·.id))).Mirrors untouched
      t.append.sections := by
  rw [h.appendSection_eq, Tree.sections_append]
  refine ⟨h.placed.push, by simp [h.size_eq], ?_, ?_⟩
  · intro i e s he hs
    rw [Array.getElem?_push] at he hs
    rw [h.size_eq] at he
    by_cases hi : i = t.sections.size
    · rw [if_pos hi] at he hs
      obtain rfl := Option.some.inj he
      obtain rfl := Option.some.inj hs
      exact Entry.mirrors_new _
    · rw [if_neg hi] at he hs
      exact h.entry i e s he hs
  · have hIndexed := h.indexed.push { id := t.sections.size }
    intro id
    simpa [h.size_eq] using hIndexed id

/-! ## Folding -/

/-- Folding an entry keeps everything but whether it is open. -/
theorem Entry.Mirrors.fold {e : Entry} {s : Section} (h : e.Mirrors untouched s)
    (hTouched : ¬ untouched) (isOpen : Bool) : ({ e with isOpen := isOpen }).Mirrors untouched s :=
  ⟨h.id, h.attributes, h.lines, h.hasToggle, fun hu => absurd hu hTouched⟩

theorem collapsed_modify (v : View) (id : Nat) (f : Entry → Entry) :
    (v.modify id f).collapsed = v.collapsed := by
  unfold modify
  split <;> rfl

/-- Only a reader folds all sections together. -/
theorem collapsed_commit (v : View) (b : Batch) : (v.commit b).collapsed = v.collapsed := by
  have hChanges : ∀ (changes : List Change) (w : View),
      (changes.foldl apply w).collapsed = w.collapsed := by
    intro changes
    induction changes with
    | nil => exact fun w => rfl
    | cons c changes ih =>
      intro w
      rw [List.foldl_cons, ih]
      cases c with
      | appendSection => rfl
      | appendLine | setOpen | setAttributes | attachToggle => exact collapsed_modify w _ _
  exact hChanges b.changes _

theorem Mirrors.toggle {v : View} {sections : Array Section} (h : v.Mirrors untouched sections)
    (hTouched : ¬ untouched) (id : Nat) : (v.toggle id).1.Mirrors untouched sections := by
  unfold View.toggle
  split
  · next e _ =>
    split
    · have hFolded := h.modify id (f := fun e => { e with isOpen := !e.isOpen }) (g := fun s => s)
        (fun e s _ hEntry => hEntry.fold hTouched _) fun _ => rfl
      rwa [array_modify_id] at hFolded
    · exact h
  · exact h

theorem Mirrors.toggleAll {v : View} {sections : Array Section} (h : v.Mirrors untouched sections)
    (hTouched : ¬ untouched) : v.toggleAll.Mirrors untouched sections := by
  unfold View.toggleAll
  split
  · refine ⟨h.placed, by simp [h.size_eq], ?_, h.position⟩
    intro i e s he hs
    rw [Array.getElem?_map] at he
    obtain ⟨e', he', rfl⟩ := Option.map_eq_some_iff.mp he
    have hEntry := h.entry i e' s he' hs
    split
    · exact hEntry.fold hTouched _
    · exact hEntry
  · exact h

/-! ## What mirroring says -/

theorem Mirrors.get? {v : View} {sections : Array Section} (h : v.Mirrors untouched sections)
    (id : Nat) : v.get? id = v.entries[id]? := by
  unfold View.get?
  rw [h.position]
  split
  · rfl
  · next hId => simp [Array.getElem?_eq_none (h.size_eq ▸ Nat.le_of_not_lt hId)]

theorem Mirrors.exists_section {v : View} {sections : Array Section}
    (h : v.Mirrors untouched sections) {i : Nat} {e : Entry} (he : v.entries[i]? = some e) :
    ∃ s, sections[i]? = some s ∧ e.Mirrors untouched s := by
  have hLt : i < sections.size := h.size_eq ▸ (Array.getElem?_eq_some_iff.mp he).1
  have hs := Array.getElem?_eq_getElem hLt
  exact ⟨_, hs, h.entry i e _ he hs⟩

theorem Mirrors.exists_entry {v : View} {sections : Array Section}
    (h : v.Mirrors untouched sections) {i : Nat} {s : Section} (hs : sections[i]? = some s) :
    ∃ e, v.entries[i]? = some e ∧ e.Mirrors untouched s := by
  have hLt : i < v.entries.size := h.size_eq ▸ (Array.getElem?_eq_some_iff.mp hs).1
  have he := Array.getElem?_eq_getElem hLt
  exact ⟨_, he, h.entry i _ s he hs⟩

theorem Mirrors.id_eq {v : View} {sections : Array Section} (h : v.Mirrors untouched sections)
    {i : Nat} {e : Entry} (he : v.entries[i]? = some e) : e.id = i := by
  obtain ⟨s, hs, hShows⟩ := h.exists_section he
  exact hShows.id.trans (h.placed i s hs)

/-- The ids of the entries are their places, so no id appears twice. -/
theorem Mirrors.ids_eq_range {v : View} {sections : Array Section}
    (h : v.Mirrors untouched sections) :
    v.entries.toList.map (·.id) = List.range v.entries.size := by
  refine List.ext_getElem (by simp) fun i hi hi' => ?_
  have hLt : i < v.entries.size := by simpa using hi'
  simpa using h.id_eq (Array.getElem?_eq_getElem hLt)

/-- The entry that shows a section as long as nobody folds it. -/
def Entry.ofSection (s : Section) : Entry :=
  ⟨s.id, s.attributes, s.isOpen, s.attributes.multiline, s.lines⟩

/-- An entry that nobody has folded is determined by its section. -/
theorem Entry.Mirrors.eq_ofSection {e : Entry} {s : Section} (h : e.Mirrors True s) :
    e = .ofSection s := by
  obtain ⟨hId, hAttributes, hLines, hToggle, hOpen⟩ := h
  cases e
  simp_all [ofSection]

/-- A view that nobody has folded shows every section as it is. -/
theorem Mirrors.entries_eq_map {v : View} {sections : Array Section}
    (h : v.Mirrors True sections) : v.entries = sections.map .ofSection := by
  refine Array.ext (by simp [h.size_eq]) fun i hi hi' => ?_
  have hLt : i < sections.size := by simpa using hi'
  have hEntry := h.entry i _ _ (Array.getElem?_eq_getElem hi) (Array.getElem?_eq_getElem hLt)
  rw [hEntry.eq_ofSection, Array.getElem_map]

/-- Views that nobody has folded are determined by the sections they mirror. -/
theorem Mirrors.entries_eq {v w : View} {sections : Array Section} (hv : v.Mirrors True sections)
    (hw : w.Mirrors True sections) : v.entries = w.entries :=
  hv.entries_eq_map.trans hw.entries_eq_map.symm

end View

end BuildLog
