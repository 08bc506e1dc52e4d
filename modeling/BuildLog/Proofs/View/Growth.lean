import BuildLog.Proofs.Console.Mirror
import BuildLog.Proofs.Tree.Growth

/-!
# What has been read stays on display

A batch of changes is about the last section of a tree and those begun since. A view that mirrors
the tree therefore keeps all its entries but the last, with the lines and the fold that a reader
sees of them, and its last entry goes on showing the section that has grown.

* `View.settled_prefix`: the rows above the growing part stay where they are.
* `Tree.kept_shownSince`: while lines are read, no change is about an earlier entry.
* `View.keeps_process`: the batch of some lines keeps what a view has settled.
-/

namespace BuildLog

namespace View

/-- The section that an entry shows. -/
def Entry.shown (e : Entry) : Section := ⟨e.id, e.attributes, e.isOpen, e.lines⟩

def Entry.Grows (e e' : Entry) : Prop := e.shown.Grows e'.shown

/-- The lines on display of all entries but the last, and the first line of the last one. -/
def settled (v : View) : List Line :=
  v.entries.toList.dropLast.flatMap Entry.visible ++ (v.entries.back?.bind (·.lines[0]?)).toList

/-- A view has kept what another one has settled. -/
structure Keeps (v w : View) : Prop where
  entries : OnlyLast Entry.Grows v.entries w.entries
  visible : v.settled <+: w.visible.map (·.2)

variable {untouched : Prop}

/-- If a section grows, so does the entry that mirrors it. -/
theorem Entry.Mirrors.grows {e e' : Entry} {s s' : Section} (h : e.Mirrors untouched s)
    (h' : e'.Mirrors untouched s') (hGrows : s.Grows s') : e.Grows e' where
  id := h'.id.trans (hGrows.id.trans h.id.symm)
  lines := by
    have hLines := hGrows.lines
    rwa [← h.lines, ← h'.lines] at hLines
  kind := by
    have hKind := hGrows.kind
    rwa [← h.attributes, ← h'.attributes] at hKind

/-! ## Rows above the growing part -/

theorem map_snd_visible (v : View) :
    v.visible.map (·.2) = v.entries.toList.flatMap Entry.visible := by
  simp [visible, List.map_flatMap, Function.comp_def]

/-- The first line of an entry is never folded away. -/
theorem Entry.first_prefix_visible {e e' : Entry} (h : e.Grows e') :
    e.lines[0]?.toList <+: e'.visible := by
  cases hFirst : e.lines[0]? with
  | none => exact List.nil_prefix
  | some l =>
    obtain ⟨later, hLines⟩ := h.lines
    have hHead : ∃ more, e'.lines.toList = l :: more := by
      rw [← Array.getElem?_toList] at hFirst
      have hOld : e.shown.lines.toList = l :: e.lines.toList.tail := by
        cases hList : e.lines.toList with
        | nil => simp [hList] at hFirst
        | cons first rest =>
          obtain rfl : first = l := by simpa [hList] using hFirst
          simpa [shown] using hList
      exact ⟨e.lines.toList.tail ++ later, by
        rw [← List.cons_append, ← hOld]
        exact hLines.symm⟩
    obtain ⟨more, hMore⟩ := hHead
    unfold visible
    split <;> simp [hMore]

theorem exists_split_of_onlyLast {v w : View} (h : OnlyLast Entry.Grows v.entries w.entries)
    {e : Entry} (he : v.entries.back? = some e) :
    ∃ e' later, w.entries.toList = v.entries.toList.dropLast ++ e' :: later ∧ e.Grows e' := by
  obtain ⟨e', he', hGrows⟩ := h.last e he
  have hLt : v.entries.size - 1 < w.entries.toList.length := by
    simpa using (Array.getElem?_eq_some_iff.mp he').1
  have hFront : w.entries.toList.take (v.entries.size - 1) = v.entries.toList.dropLast := by
    apply List.ext_getElem?
    intro i
    rw [List.dropLast_eq_take, List.getElem?_take, List.getElem?_take, Array.length_toList]
    split
    · next hi => simpa using h.same i (by omega)
    · rfl
  have hBehind : w.entries.toList.drop (v.entries.size - 1) =
      e' :: w.entries.toList.drop (v.entries.size - 1 + 1) := by
    rw [List.drop_eq_getElem_cons hLt]
    rw [← Array.getElem?_toList, List.getElem?_eq_getElem hLt] at he'
    rw [Option.some.inj he']
  refine ⟨e', w.entries.toList.drop (v.entries.size - 1 + 1), ?_, hGrows⟩
  rw [← hBehind, ← hFront, List.take_append_drop]

/-- Whatever is read off the entries, nothing of it is lost where only the last one grows, if growth
keeps what is read off that one. -/
theorem flatMap_prefix {α : Type} {v w : View} (h : OnlyLast Entry.Grows v.entries w.entries)
    {f first : Entry → List α} (hFirst : ∀ e e' : Entry, e.Grows e' → first e <+: f e') :
    v.entries.toList.dropLast.flatMap f ++ v.entries.back?.toList.flatMap first <+:
      w.entries.toList.flatMap f := by
  cases he : v.entries.back? with
  | none =>
    have hEmpty : v.entries = #[] := Array.back?_eq_none_iff.mp he
    simp [hEmpty]
  | some e =>
    obtain ⟨e', later, hEntries, hGrows⟩ := exists_split_of_onlyLast h he
    rw [hEntries, List.flatMap_append, List.flatMap_cons, Option.toList_some,
      List.flatMap_singleton]
    refine (List.prefix_append_right_inj _).mpr ?_
    exact (hFirst e e' hGrows).trans (List.prefix_append _ _)

/-- What a view has settled stays the beginning of what is on display. -/
theorem settled_prefix {v w : View} (h : OnlyLast Entry.Grows v.entries w.entries) :
    v.settled <+: w.visible.map (·.2) := by
  have hKept := flatMap_prefix h fun _ _ => Entry.first_prefix_visible
  have hLast : v.entries.back?.toList.flatMap (·.lines[0]?.toList) =
      (v.entries.back?.bind (·.lines[0]?)).toList := by
    cases v.entries.back? <;> simp
  rwa [hLast, ← map_snd_visible] at hKept

theorem Keeps.of_onlyLast {v w : View} (h : OnlyLast Entry.Grows v.entries w.entries) :
    v.Keeps w := ⟨h, settled_prefix h⟩

theorem Keeps.refl (v : View) : v.Keeps v :=
  .of_onlyLast (.refl (fun e => Section.Grows.refl e.shown) v.entries)

theorem Keeps.trans {u v w : View} (h : u.Keeps v) (h' : v.Keeps w) : u.Keeps w :=
  .of_onlyLast (h.entries.trans (fun hGrows hGrows' => hGrows.trans hGrows') h'.entries)

end View

/-! ## While lines are read -/

namespace Tree

/-- Since a view showed a tree, no change was about an entry in front of its last one. -/
structure ShownSince (untouched : Prop) (v : View) (t : Tree) : Prop where
  shown : t.ShownBy untouched v
  size_le : v.entries.size ≤ t.sections.size
  same : ∀ i, i + 1 < v.entries.size →
    (t.pending.toList.foldl View.apply v).entries[i]? = v.entries[i]?

/-- An edit of the last section keeps what a display has shown since a moment. -/
theorem ShownSince.edit {untouched : Prop} {v : View} {t : Tree} (h : t.ShownSince untouched v)
    {last : Nat} (hSize : t.sections.size = last + 1) {e : Section.Edit} (he : e.ByCursor) :
    (t.edit last e).ShownSince untouched v := by
  have hShown : View.Mirrors untouched _ t.sections := h.shown
  have hPos : (t.pending.toList.foldl View.apply v).positions[last]? = some last := by
    rw [hShown.position, if_pos (by omega)]
  have hLe := h.size_le
  refine ⟨(kept_shownBy untouched v).edit hSize he h.shown, by simpa using hLe, ?_⟩
  intro i hi
  -- The edit is told by changes of the last section, which the view has at the same position.
  have hNe : last ≠ i := by omega
  rw [pending_edit, List.foldl_append,
    View.foldl_apply_eq_modify fun c hc => hShown.placed.editChanges he hc]
  simp only [View.modify, hPos]
  rw [Array.getElem?_modify, if_neg hNe]
  exact h.same i hi

theorem ShownSince.append {untouched : Prop} {v : View} {t : Tree} (h : t.ShownSince untouched v) :
    t.append.ShownSince untouched v := by
  have hShown : View.Mirrors untouched _ t.sections := h.shown
  have hLe := h.size_le
  have hSize := hShown.size_eq
  refine ⟨(kept_shownBy untouched v).append h.shown, ?_, ?_⟩
  · simpa [sections_append] using Nat.le_succ_of_le hLe
  · intro i hi
    have hNe : i ≠ (t.pending.toList.foldl View.apply v).entries.size := by omega
    have hNew : View.apply (t.pending.toList.foldl View.apply v)
        (.appendSection t.sections.size (t.last?.map (·.id))) = _ := hShown.appendSection_eq
    rw [pending_append, List.foldl_append, List.foldl_cons, List.foldl_nil, hNew,
      Array.getElem?_push, if_neg hNe]
    exact h.same i hi

theorem kept_shownSince (untouched : Prop) (v : View) : Kept (ShownSince untouched v) where
  edit hSize he h := h.edit hSize he
  append h := h.append

end Tree

namespace View

variable {untouched : Prop} {P : List Section → Section → List Text → Prop}

/-- The batch of some lines leaves the entries in front of the last one alone. -/
theorem process_same {g : Grouping} {v : View} {raws : List Text} (hHas : g.Has P raws)
    (h : v.Mirrors untouched g.tree.sections) (lines : List Text) :
    ∀ i, i + 1 < v.entries.size →
      (Console.commit? v (g.process lines).2).entries[i]? = v.entries[i]? := by
  cases lines with
  | nil => exact fun i _ => rfl
  | cons raw lines =>
    have hShown : g.tree.ShownSince untouched { v with commits := v.commits + 1 } :=
      ⟨by simpa [Tree.ShownBy, hHas.pending] using h.counted, Nat.le_of_eq h.size_eq,
        by simp [hHas.pending]⟩
    rw [Console.commit_process hHas h.placed]
    exact (Grouping.read_kept (Tree.kept_shownSince untouched _) hHas hShown (raw :: lines)).same

/-- The last entry shows the last section, and has grown with it. -/
theorem Mirrors.last_grows {v w : View} {before after : Array Section}
    (h : v.Mirrors untouched before) (h' : w.Mirrors untouched after)
    (hGrows : OnlyLast Section.Grows before after) :
    ∀ e, v.entries.back? = some e → ∃ e', w.entries[v.entries.size - 1]? = some e' ∧ e.Grows e' := by
  intro e he
  rw [Array.back?_eq_getElem?] at he
  obtain ⟨s, hs, hShows⟩ := h.exists_section he
  have hLast : before.back? = some s := by rwa [Array.back?_eq_getElem?, ← h.size_eq]
  obtain ⟨s', hs', hMore⟩ := hGrows.last s hLast
  rw [← h.size_eq] at hs'
  obtain ⟨e', he', hShows'⟩ := h'.exists_entry hs'
  exact ⟨e', he', hShows.grows hShows' hMore⟩

theorem keeps_process {g : Grouping} {v : View} {raws : List Text} (hHas : g.Has P raws)
    (h : v.Mirrors untouched g.tree.sections) (lines : List Text) :
    v.Keeps (Console.commit? v (g.process lines).2) := by
  have hSame := process_same hHas h lines
  have hLast := h.last_grows (Console.process_mirrors hHas h lines)
    (Grouping.process_onlyLast hHas lines)
  exact .of_onlyLast ⟨hSame, hLast⟩

end View

end BuildLog
