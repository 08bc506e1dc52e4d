import BuildLog.Proofs.Grouping.Advance

/-!
# The order of recorded changes

While a batch of lines is read, only the last section is edited, and sections are only begun behind
it. So the recorded changes are sorted by the section they are about, and setting apart those of the
section that was open when the batch began does not change their order.

* `Batch.changes_ofChanges`: a batch hands over sorted changes as they were recorded.
* `Tree.kept_ordered`: changes of a tree that is read into are sorted.
-/

namespace BuildLog

/-- Whether a change begins a section, rather than being about one that is there. -/
def Change.begins : Change → Bool
  | .appendSection _ _ => true
  | _ => false

namespace Section.Edit

theorem ByCursor.id_apply {e : Edit} (he : e.ByCursor) (s : Section) : (e.apply s).id = s.id := by
  cases he <;> simp

/-- An edit is told by changes of the section it is made to. -/
theorem ByCursor.target_eq {e : Edit} (he : e.ByCursor) {s : Section} {c : Change}
    (hc : c ∈ e.changes s) : c.target = s.id ∧ c.begins = false := by
  cases he with
  | assignKind code =>
    simp only [Edit.assignKind] at hc
    split at hc
    · simp at hc
    · obtain rfl := List.mem_singleton.mp hc
      exact ⟨id_assignKind code s, rfl⟩
  | detectStatus code =>
    simp only [Edit.detectStatus] at hc
    split at hc
    · simp at hc
    · obtain rfl := List.mem_singleton.mp hc
      exact ⟨rfl, rfl⟩
  | markMultiline =>
    simp only [Edit.markMultiline] at hc
    split at hc
    · simp at hc
    · simp only [List.mem_cons, List.not_mem_nil, or_false] at hc
      obtain rfl | rfl := hc <;> exact ⟨rfl, rfl⟩
  | write line =>
    obtain rfl := List.mem_singleton.mp hc
    exact ⟨rfl, rfl⟩
  | close =>
    simp only [Edit.close] at hc
    split at hc
    · simp at hc
    · obtain rfl := List.mem_singleton.mp hc
      exact ⟨rfl, rfl⟩

end Section.Edit

namespace Section

/-- Each section bears its place as its id. -/
def Placed (sections : Array Section) : Prop :=
  ∀ (i : Nat) (s : Section), sections[i]? = some s → s.id = i

theorem placed_empty : Placed #[] := by
  intro i s hs
  simp at hs

theorem Placed.modify {sections : Array Section} (h : Placed sections) (id : Nat)
    {g : Section → Section} (hg : ∀ s, (g s).id = s.id) : Placed (sections.modify id g) := by
  intro i s hs
  rw [Array.getElem?_modify] at hs
  split at hs
  · obtain ⟨s', hs', rfl⟩ := Option.map_eq_some_iff.mp hs
    exact (hg s').trans (h i s' hs')
  · exact h i s hs

theorem Placed.push {sections : Array Section} (h : Placed sections) :
    Placed (sections.push { id := sections.size }) := by
  intro i s hs
  rw [Array.getElem?_push] at hs
  split at hs
  · next hi =>
    obtain rfl := Option.some.inj hs
    exact hi.symm
  · exact h i s hs

/-- The last section bears the highest place as its id. -/
theorem Placed.back?_cases {sections : Array Section} (h : Placed sections) :
    sections = #[] ∨ (0 < sections.size ∧
      sections.back?.map (·.id) = some (sections.size - 1)) := by
  by_cases hEmpty : sections.size = 0
  · exact .inl (Array.eq_empty_of_size_eq_zero hEmpty)
  · have hLt : sections.size - 1 < sections.size := by omega
    have hLast := Array.getElem?_eq_getElem hLt
    refine .inr ⟨by omega, ?_⟩
    rw [Array.back?_eq_getElem?, hLast]
    exact congrArg some (h _ _ hLast)

end Section

namespace Tree

/-- The changes that tell an edit of the section at a place. -/
def editChanges (t : Tree) (id : Nat) (e : Section.Edit) : List Change :=
  match t.sections[id]? with
  | some s => e.changes s
  | none => []

theorem editChanges_of_some {t : Tree} {id : Nat} {s : Section} (h : t.sections[id]? = some s)
    (e : Section.Edit) : t.editChanges id e = e.changes s := by
  simp [editChanges, h]

theorem pending_edit (t : Tree) (id : Nat) (e : Section.Edit) :
    (t.edit id e).pending.toList = t.pending.toList ++ t.editChanges id e := by
  cases hs : t.sections[id]? <;> simp [edit, editChanges, hs]

theorem pending_append (t : Tree) :
    t.append.pending.toList =
      t.pending.toList ++ [.appendSection t.sections.size (t.last?.map (·.id))] := by
  simp [append]

end Tree

/-- The changes of an edit are about the section it edits, and begin none. -/
theorem Section.Placed.editChanges {t : Tree} (h : Placed t.sections) {id : Nat} {e : Edit}
    (he : e.ByCursor) {c : Change} (hc : c ∈ t.editChanges id e) :
    c.target = id ∧ c.begins = false := by
  unfold Tree.editChanges at hc
  split at hc
  · next s hs =>
    obtain ⟨hId, hBegins⟩ := he.target_eq hc
    exact ⟨hId.trans (h id s hs), hBegins⟩
  · simp at hc

/-- The changes of a section come before those of later ones, and none is about a section in front
of `first`. -/
structure Tree.Ordered (first : Nat) (t : Tree) : Prop where
  placed : Section.Placed t.sections
  first_lt : first < t.sections.size
  sorted : t.pending.toList.Pairwise fun c d => c.target ≤ d.target
  within : ∀ c ∈ t.pending.toList, first ≤ c.target ∧ c.target < t.sections.size

namespace Tree

/-- Changes about the last section may come behind all others. -/
theorem Ordered.edit {first last : Nat} {t : Tree} {e : Section.Edit} (h : t.Ordered first)
    (hSize : t.sections.size = last + 1) (he : e.ByCursor) : (t.edit last e).Ordered first := by
  have hTarget : ∀ c ∈ t.editChanges last e, c.target = last := fun c hc =>
    (h.placed.editChanges he hc).1
  have hFirst := h.first_lt
  refine ⟨h.placed.modify last he.id_apply, by simpa using hFirst, ?_, ?_⟩
  · rw [pending_edit, List.pairwise_append]
    refine ⟨h.sorted, ?_, ?_⟩
    · refine List.pairwise_of_forall_mem_list ?_
      intro c hc d hd
      exact Nat.le_of_eq ((hTarget c hc).trans (hTarget d hd).symm)
    · intro c hc d hd
      have hLt := (h.within c hc).2
      rw [hTarget d hd]
      omega
  · intro c hc
    rw [pending_edit] at hc
    rw [size_edit]
    obtain hc | hc := List.mem_append.mp hc
    · exact h.within c hc
    · rw [hTarget c hc]
      omega

theorem Ordered.append {first : Nat} {t : Tree} (h : t.Ordered first) :
    t.append.Ordered first := by
  have hFirst := h.first_lt
  have hSize : t.append.sections.size = t.sections.size + 1 := by simp [sections_append]
  refine ⟨h.placed.push, by omega, ?_, ?_⟩
  · rw [pending_append, List.pairwise_append]
    refine ⟨h.sorted, by simp, ?_⟩
    intro c hc d hd
    obtain rfl := List.mem_singleton.mp hd
    exact Nat.le_of_lt (h.within c hc).2
  · intro c hc
    rw [pending_append] at hc
    obtain hc | hc := List.mem_append.mp hc
    · have hWithin := h.within c hc
      omega
    · obtain rfl := List.mem_singleton.mp hc
      simp only [Change.target]
      omega

theorem kept_ordered (first : Nat) : Kept (Ordered first) where
  edit hSize he h := h.edit hSize he
  append h := h.append

end Tree

namespace Batch

/-- Setting apart the changes of the first section keeps the order of sorted changes. -/
theorem changes_ofChanges {first : Nat} {changes : List Change}
    (hSorted : changes.Pairwise fun c d => c.target ≤ d.target)
    (hFirst : ∀ c ∈ changes, first ≤ c.target) :
    (ofChanges (some first) changes).changes = changes := by
  induction changes with
  | nil => rfl
  | cons c changes ih =>
    obtain ⟨hLe, hSorted⟩ := List.pairwise_cons.mp hSorted
    have hTail := ih hSorted fun d hd => hFirst d (List.mem_cons_of_mem c hd)
    by_cases hTarget : c.target = first
    · simpa [Batch.changes, ofChanges, hTarget] using hTail
    · have hLt : ∀ d ∈ c :: changes, d.target ≠ first := by
        intro d hd
        have hc := hFirst c List.mem_cons_self
        obtain rfl | hd := List.mem_cons.mp hd
        · exact hTarget
        · have := hLe d hd
          omega
      have hNone : (c :: changes).filter (fun d => some d.target = some first) = [] :=
        List.filter_eq_nil_iff.mpr fun d hd => by simpa using hLt d hd
      have hAll : (c :: changes).filter (fun d => some d.target ≠ some first) = c :: changes :=
        List.filter_eq_self.mpr fun d hd => by simpa using hLt d hd
      simp only [Batch.changes, ofChanges, hNone, hAll, List.nil_append]

end Batch

end BuildLog
