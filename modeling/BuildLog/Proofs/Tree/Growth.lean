import BuildLog.Proofs.Grouping.Run

/-!
# Closed sections stay as they are

Lines only go to the last section of a tree, and sections are only begun behind it. So a batch of
lines leaves every section in front of the last one alone, and of the last one it keeps the lines
and the kind.

* `Section.Edit.ByCursor.grows`: edits add lines at the end and give a kind once.
* `Tree.kept_since`: while lines are read, only the last section there was has grown.
* `Grouping.act_onlyLast`: the same of one more input, whatever its lines.
-/

namespace BuildLog

/-- All elements but the last one are what they were, and the last one has become another. -/
structure OnlyLast {α : Type} (Becomes : α → α → Prop) (before after : Array α) : Prop where
  same : ∀ i, i + 1 < before.size → after[i]? = before[i]?
  last : ∀ x, before.back? = some x → ∃ y, after[before.size - 1]? = some y ∧ Becomes x y

theorem OnlyLast.refl {α : Type} {Becomes : α → α → Prop} (hRefl : ∀ x, Becomes x x)
    (xs : Array α) : OnlyLast Becomes xs xs where
  same _ _ := rfl
  last x hx := ⟨x, by rwa [← Array.back?_eq_getElem?], hRefl x⟩

/-- What happens in two turns happens to the last element and those added since. -/
theorem OnlyLast.trans {α : Type} {Becomes : α → α → Prop}
    (hTrans : ∀ {x y z}, Becomes x y → Becomes y z → Becomes x z) {first second third : Array α}
    (h : OnlyLast Becomes first second) (h' : OnlyLast Becomes second third) :
    OnlyLast Becomes first third where
  same i hi := by
    have hBack : first.back? = first[first.size - 1]? := Array.back?_eq_getElem?
    rw [Array.getElem?_eq_getElem (by omega)] at hBack
    obtain ⟨y, hy, -⟩ := h.last _ hBack
    have hLt := (Array.getElem?_eq_some_iff.mp hy).1
    exact (h'.same i (by omega)).trans (h.same i hi)
  last x hx := by
    obtain ⟨y, hy, hBecomes⟩ := h.last x hx
    have hLt := (Array.getElem?_eq_some_iff.mp hy).1
    by_cases hLast : first.size - 1 + 1 < second.size
    · exact ⟨y, (h'.same _ hLast).trans hy, hBecomes⟩
    · have hSize : second.size - 1 = first.size - 1 := by omega
      obtain ⟨z, hz, hBecomes'⟩ := h'.last y (by rwa [Array.back?_eq_getElem?, hSize])
      exact ⟨z, hSize ▸ hz, hTrans hBecomes hBecomes'⟩

namespace Section

/-- A section has gained lines at its end, and has kept its kind if it had one. -/
structure Grows (s s' : Section) : Prop where
  id : s'.id = s.id
  lines : s.lines.toList <+: s'.lines.toList
  kind : s.attributes.kind.isSome → s'.attributes.kind = s.attributes.kind

theorem Grows.refl (s : Section) : s.Grows s := ⟨rfl, List.prefix_rfl, fun _ => rfl⟩

theorem Grows.trans {s s' s'' : Section} (h : s.Grows s') (h' : s'.Grows s'') : s.Grows s'' where
  id := h'.id.trans h.id
  lines := h.lines.trans h'.lines
  kind hKind := by
    have hSame := h.kind hKind
    rw [← hSame] at hKind ⊢
    exact h'.kind hKind

/-- Edits through a cursor add lines at the end of a section, and keep its kind. -/
theorem Edit.ByCursor.grows {e : Edit} (he : e.ByCursor) (s : Section) : s.Grows (e.apply s) := by
  cases he with
  | assignKind code =>
    cases hKind : s.attributes.kind with
    | none =>
      refine ⟨by simp, ?_, fun hSome => ?_⟩
      · simp [Edit.assignKind, hKind]
      · simp [hKind] at hSome
    | some kind =>
      have hSame : (Edit.assignKind code).apply s = s := by simp [Edit.assignKind, hKind]
      rw [hSame]
      exact .refl s
  | detectStatus code => exact ⟨rfl, List.prefix_rfl, fun _ => rfl⟩
  | markMultiline => exact ⟨rfl, List.prefix_rfl, fun _ => rfl⟩
  | write line => exact ⟨rfl, by simp [Edit.write], fun _ => rfl⟩
  | close => exact ⟨rfl, List.prefix_rfl, fun _ => rfl⟩

end Section

namespace Tree

/-- Since a tree had some sections, only the last of them has grown. -/
structure Since (before : Array Section) (t : Tree) : Prop where
  size_le : before.size ≤ t.sections.size
  onlyLast : OnlyLast Section.Grows before t.sections

theorem Since.edit {before : Array Section} {t : Tree} (h : t.Since before) {last : Nat}
    (hSize : t.sections.size = last + 1) {e : Section.Edit} (he : e.ByCursor) :
    (t.edit last e).Since before := by
  have hLe := h.size_le
  refine ⟨by simpa using hLe, ?_, ?_⟩
  · intro i hi
    have hNe : last ≠ i := by omega
    rw [sections_edit, Array.getElem?_modify, if_neg hNe]
    exact h.onlyLast.same i hi
  · intro s hs
    obtain ⟨s', hs', hGrows⟩ := h.onlyLast.last s hs
    by_cases hLast : last = before.size - 1
    · refine ⟨e.apply s', ?_, hGrows.trans (he.grows s')⟩
      rw [sections_edit, Array.getElem?_modify, if_pos hLast, hs', Option.map_some]
    · refine ⟨s', ?_, hGrows⟩
      rw [sections_edit, Array.getElem?_modify, if_neg hLast, hs']

theorem Since.append {before : Array Section} {t : Tree} (h : t.Since before) :
    t.append.Since before := by
  have hLe := h.size_le
  refine ⟨by simpa [sections_append] using Nat.le_succ_of_le hLe, ?_, ?_⟩
  · intro i hi
    have hNe : i ≠ t.sections.size := by omega
    rw [sections_append, Array.getElem?_push, if_neg hNe]
    exact h.onlyLast.same i hi
  · intro s hs
    obtain ⟨s', hs', hGrows⟩ := h.onlyLast.last s hs
    have hLt : before.size - 1 < t.sections.size := (Array.getElem?_eq_some_iff.mp hs').1
    refine ⟨s', ?_, hGrows⟩
    rw [sections_append, Array.getElem?_push, if_neg (by omega), hs']

theorem kept_since (before : Array Section) : Kept (Since before) where
  edit hSize he h := h.edit hSize he
  append h := h.append

end Tree

namespace Grouping

variable {P : List Section → Section → List Text → Prop}

/-- Lines only let the last section there was grow. -/
theorem process_onlyLast {g : Grouping} {raws : List Text} (h : g.Has P raws) (lines : List Text) :
    OnlyLast Section.Grows g.tree.sections (g.process lines).1.tree.sections := by
  have hNow : g.tree.Since g.tree.sections := ⟨Nat.le_refl _, .refl Section.Grows.refl _⟩
  cases lines with
  | nil => exact hNow.onlyLast
  | cons raw lines => exact (read_kept (Tree.kept_since _) h hNow (raw :: lines)).onlyLast

theorem act_onlyLast {g : Grouping} {raws : List Text} (h : g.Has P raws) (i : Input) :
    OnlyLast Section.Grows g.tree.sections (g.act i).1.tree.sections := by
  rw [act_eq_process, ← tree_prepare g i]
  exact process_onlyLast (h.prepare i) (g.due i)

end Grouping

end BuildLog
