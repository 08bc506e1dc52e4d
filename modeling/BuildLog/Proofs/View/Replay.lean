import BuildLog.Proofs.Grouping.Handover
import BuildLog.Proofs.View.Mirror

/-!
# Changes out of order

A batch sets the changes of one section ahead of all others, so a view may apply changes in another
order than that in which they were recorded. An entry depends on nothing but the changes about it,
in their order, so this makes no difference as long as the view has the section already.

* `Change.Leads`: changes that make sense to a view of so many sections.
* `View.Indexed.foldl_apply`: each entry is made of the changes about it.
* `View.Indexed.commit_ofChanges`: the two parts of a batch give what its changes give as recorded.
-/

namespace BuildLog

namespace Change

/-- Changes that lead a view of `n` sections to one of `m`: sections are begun at the end, and all
other changes are about sections that are there. -/
inductive Leads : Nat → List Change → Nat → Prop
  | nil (n : Nat) : Leads n [] n
  | beginning {n m : Nat} {changes : List Change} (h : Leads (n + 1) changes m) :
      Leads n (Change.beginning n :: changes) m
  | about {n m : Nat} {c : Change} {changes : List Change} (hAbout : c.begins = false)
      (hLt : c.target < n) (h : Leads n changes m) : Leads n (c :: changes) m

theorem target_beginning (n : Nat) : (beginning n).target = n := by cases n <;> rfl

namespace Leads

variable {n m : Nat} {changes : List Change}

theorem le (h : Leads n changes m) : n ≤ m := by
  induction h with
  | nil => exact Nat.le_refl _
  | beginning _ ih => exact Nat.le_of_succ_le ih
  | about _ _ _ ih => exact ih

theorem append {k : Nat} {later : List Change} (h : Leads n changes m) (h' : Leads m later k) :
    Leads n (changes ++ later) k := by
  induction h with
  | nil => exact h'
  | beginning _ ih => exact .beginning (ih h')
  | about hAbout hLt _ ih => exact .about hAbout hLt (ih h')

/-- Changes about sections that are there begin none. -/
theorem of_about (h : ∀ c ∈ changes, c.begins = false ∧ c.target < n) : Leads n changes n := by
  induction changes with
  | nil => exact .nil n
  | cons c changes ih =>
    obtain ⟨hAbout, hLt⟩ := h c List.mem_cons_self
    exact .about hAbout hLt (ih fun d hd => h d (List.mem_cons_of_mem c hd))

/-- The sections that changes begin are numbered in order. -/
theorem target_of_begins (h : Leads n changes m) {c : Change} (hc : c ∈ changes)
    (hBegins : c.begins = true) : n ≤ c.target ∧ c.target < m := by
  induction h with
  | nil => cases hc
  | @beginning n _ _ hRest ih =>
    obtain rfl | hc := List.mem_cons.mp hc
    · rw [target_beginning]
      exact ⟨Nat.le_refl n, hRest.le⟩
    · have hLt := ih hc
      omega
  | about hAbout _ _ ih =>
    obtain rfl | hc := List.mem_cons.mp hc
    · simp [hAbout] at hBegins
    · exact ih hc

/-! ### Setting changes apart -/

variable {p : Nat → Bool}

/-- The changes of sections that are there from the start. -/
theorem filter_front (h : Leads n changes m) (hp : ∀ id, p id = true → id < n) :
    Leads n (changes.filter fun c => p c.target) n := by
  refine of_about fun c hc => ?_
  obtain ⟨hc, hTarget⟩ := List.mem_filter.mp hc
  refine ⟨?_, hp _ hTarget⟩
  by_contra hBegins
  have hLe := (h.target_of_begins hc (by simpa using hBegins)).1
  have hLt := hp _ hTarget
  omega

/-- All other changes. -/
theorem filter_rest (h : Leads n changes m) (hp : ∀ id, p id = true → id < n) :
    Leads n (changes.filter fun c => !p c.target) m := by
  induction h with
  | nil n => exact .nil n
  | @beginning n m changes _ ih =>
    have hKept : p n = false := by
      by_contra hTaken
      exact Nat.lt_irrefl n (hp n (by simpa using hTaken))
    have hRest := ih fun id hId => Nat.lt_succ_of_lt (hp id hId)
    simpa [target_beginning, hKept] using hRest.beginning
  | @about n m c changes hAbout hLt _ ih =>
    have hRest := ih hp
    cases hTaken : p c.target with
    | true => simpa [hTaken] using hRest
    | false => simpa [hTaken] using hRest.about hAbout hLt

end Leads

/-- Setting changes apart by their section leaves the order of each section's changes. -/
theorem filter_target_setApart (p : Nat → Bool) (changes : List Change) (id : Nat) :
    ((changes.filter fun c => p c.target) ++ changes.filter fun c => !p c.target).filter
        (fun c => c.target = id) =
      changes.filter fun c => c.target = id := by
  rw [List.filter_append, List.filter_filter, List.filter_filter]
  cases hTaken : p id with
  | true =>
    have hNone : (changes.filter fun c => decide (c.target = id) && !p c.target) = [] := by
      refine List.filter_eq_nil_iff.mpr fun c _ hBoth => ?_
      simp only [Bool.and_eq_true, decide_eq_true_eq, Bool.not_eq_true'] at hBoth
      obtain ⟨rfl, hNot⟩ := hBoth
      simp [hTaken] at hNot
    rw [hNone, List.append_nil]
    refine List.filter_congr fun c _ => ?_
    by_cases hId : c.target = id <;> simp [hId, hTaken]
  | false =>
    have hNone : (changes.filter fun c => decide (c.target = id) && p c.target) = [] := by
      refine List.filter_eq_nil_iff.mpr fun c _ hBoth => ?_
      simp only [Bool.and_eq_true, decide_eq_true_eq] at hBoth
      obtain ⟨rfl, hTrue⟩ := hBoth
      simp [hTaken] at hTrue
    rw [hNone, List.nil_append]
    refine List.filter_congr fun c _ => ?_
    by_cases hId : c.target = id <;> simp [hId, hTaken]

end Change

/-- A batch sets the changes of one section apart. -/
theorem Batch.changes_ofChanges_eq (continued : Option Nat) (changes : List Change) :
    (ofChanges continued changes).changes =
      (changes.filter fun c => decide (some c.target = continued)) ++
        changes.filter fun c => !decide (some c.target = continued) := by
  simp [Batch.changes, ofChanges]

/-- A batch loses no change, and adds none. -/
theorem Batch.changes_ofChanges_perm (continued : Option Nat) (changes : List Change) :
    (ofChanges continued changes).changes.Perm changes := by
  rw [changes_ofChanges_eq]
  exact List.filter_append_perm _ _

namespace View

namespace Indexed

variable {v : View}

/-- The beginning of the next section puts an entry behind the others. -/
theorem apply_beginning (h : v.Indexed) :
    v.apply (Change.beginning v.entries.size) =
      { v with
        entries := v.entries.push { id := v.entries.size }
        positions := v.positions.insert v.entries.size v.entries.size } := by
  obtain ⟨after, hBeginning, hPoint⟩ : ∃ after,
      Change.beginning v.entries.size = .appendSection v.entries.size after ∧
        v.insertionPoint after = v.entries.size := by
    cases hSize : v.entries.size with
    | zero => exact ⟨none, rfl, by simp [insertionPoint, hSize]⟩
    | succ n =>
      have hPos : v.positions[n]? = some n := by rw [h, if_pos (by omega)]
      exact ⟨some n, rfl, by simp [insertionPoint, hPos]⟩
  rw [hBeginning]
  simp [apply, appendSection, hPoint, insertAt, record]

theorem apply_about (h : v.Indexed) {c : Change} (hAbout : c.begins = false)
    (hLt : c.target < v.entries.size) :
    v.apply c = { v with entries := v.entries.modify c.target (·.tell c) } := by
  have hPos : v.positions[c.target]? = some c.target := by rw [h, if_pos hLt]
  rw [apply_eq_modify v hAbout]
  simp only [modify, hPos]

/-- The entry at a place, or the one that a section begun there would have. -/
def entryAt (v : View) (id : Nat) : Entry := v.entries[id]?.getD { id := id }

theorem entryAt_push (v : View) (positions : Std.HashMap Nat Nat) (id : Nat) :
    entryAt { v with
        entries := v.entries.push { id := v.entries.size }
        positions := positions } id = entryAt v id := by
  unfold entryAt
  rw [Array.getElem?_push]
  split
  · next hId => simp [hId]
  · rfl

theorem entryAt_modify (v : View) (place : Nat) (hLt : place < v.entries.size) (f : Entry → Entry)
    (id : Nat) :
    entryAt { v with entries := v.entries.modify place f } id =
      if id = place then f (entryAt v id) else entryAt v id := by
  unfold entryAt
  rw [Array.getElem?_modify]
  by_cases hId : id = place
  · subst hId
    simp [Array.getElem?_eq_getElem hLt]
  · rw [if_neg (Ne.symm hId), if_neg hId]

/-- **An entry is made of the changes about it**, in their order, whatever stands between them. -/
theorem foldl_apply (h : v.Indexed) {m : Nat} {changes : List Change}
    (hLeads : Change.Leads v.entries.size changes m) :
    (changes.foldl apply v).Indexed ∧ (changes.foldl apply v).entries.size = m ∧
      ∀ id, entryAt (changes.foldl apply v) id =
        (changes.filter fun c => c.target = id).foldl Entry.tell (entryAt v id) := by
  generalize hSize : v.entries.size = n at hLeads
  induction hLeads generalizing v with
  | nil => exact ⟨h, hSize, fun _ => rfl⟩
  | @beginning n m changes _ ih =>
    subst hSize
    have hApply := h.apply_beginning
    obtain ⟨hIndexed, hEnd, hEntry⟩ := ih (h.push _) (by simp)
    rw [List.foldl_cons, hApply]
    refine ⟨hIndexed, hEnd, fun id => ?_⟩
    rw [hEntry, entryAt_push, List.filter_cons]
    split
    · cases v.entries.size <;> rfl
    · rfl
  | @about n m c changes hAbout hLt _ ih =>
    subst hSize
    have hApply := h.apply_about hAbout hLt
    have hKept : Indexed { v with entries := v.entries.modify c.target (·.tell c) } := by
      simpa [Indexed] using h
    obtain ⟨hIndexed, hEnd, hEntry⟩ := ih hKept (by simp)
    rw [List.foldl_cons, hApply]
    refine ⟨hIndexed, hEnd, fun id => ?_⟩
    rw [hEntry, entryAt_modify v c.target hLt, List.filter_cons]
    by_cases hId : id = c.target
    · simp [hId]
    · simp [hId, Ne.symm hId]

theorem entries_eq {w : View} (hSize : v.entries.size = w.entries.size)
    (hEntry : ∀ id, entryAt v id = entryAt w id) : v.entries = w.entries := by
  refine Array.ext hSize fun i hi hi' => ?_
  simpa [entryAt, Array.getElem?_eq_getElem, hi, hi'] using hEntry i

/-- Applying the changes of some sections ahead of all others makes no difference, if the view has
these sections from the start. -/
theorem foldl_apply_setApart (h : v.Indexed) {m : Nat} {changes : List Change}
    (hLeads : Change.Leads v.entries.size changes m) {p : Nat → Bool}
    (hp : ∀ id, p id = true → id < v.entries.size) :
    let apart := (changes.filter fun c => p c.target) ++ changes.filter fun c => !p c.target
    (apart.foldl apply v).Indexed ∧
      (apart.foldl apply v).entries = (changes.foldl apply v).entries := by
  intro apart
  obtain ⟨-, hEnd, hEntry⟩ := h.foldl_apply hLeads
  obtain ⟨hIndexed, hEnd', hEntry'⟩ :=
    h.foldl_apply ((hLeads.filter_front hp).append (hLeads.filter_rest hp))
  refine ⟨hIndexed, entries_eq (hEnd'.trans hEnd.symm) fun id => ?_⟩
  rw [hEntry', hEntry, Change.filter_target_setApart]

/-- Committing a batch of changes gives what the changes give in the order of recording. -/
theorem commit_ofChanges (h : v.Indexed) {m : Nat} {changes : List Change}
    (hLeads : Change.Leads v.entries.size changes m) {continued : Option Nat}
    (hContinued : ∀ id, continued = some id → id < v.entries.size) :
    (v.commit (.ofChanges continued changes)).Indexed ∧
      (v.commit (.ofChanges continued changes)).entries = (changes.foldl apply v).entries := by
  -- How many batches have been committed is not told by any entry.
  have hCounted : Indexed { v with commits := v.commits + 1 } := h
  obtain ⟨hIndexed, hEntries⟩ := hCounted.foldl_apply_setApart hLeads
    (p := fun id => decide (some id = continued))
    fun id hId => hContinued id (of_decide_eq_true hId).symm
  obtain ⟨-, hEnd, hEntry⟩ := h.foldl_apply hLeads
  obtain ⟨-, hEnd', hEntry'⟩ := hCounted.foldl_apply hLeads
  rw [commit, Batch.changes_ofChanges_eq]
  refine ⟨hIndexed, hEntries.trans (entries_eq (hEnd'.trans hEnd.symm) fun id => ?_)⟩
  rw [hEntry', hEntry]
  rfl

end Indexed

end View

end BuildLog
