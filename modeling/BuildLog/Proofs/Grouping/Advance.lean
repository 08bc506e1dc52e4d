import BuildLog.Grouping

/-!
# What a line does to the open section

The section that receives lines is the last one of its tree. Reading a line changes that section,
may close it, and may begin one more section behind it; no other section is touched. `Advance` lists
the six ways in which this happens, and every later fact about the sections of a log is a case
analysis of it.

* `Grouping.consume_advance`: reading a line takes one of the six ways.
* `Section.Advance.unique`: and only one.
* `Grouping.consume_kept`: a line only edits the last section and appends sections, so whatever
  both keep is kept.
* `Grouping.consume_congr`: changes not yet handed over have no influence on the sections.
-/

namespace BuildLog

/-! ## The last section of a tree -/

/-- An entry of a list that has one more at its end is an earlier one or that one. -/
theorem getElem?_concat_cases {α : Type} {xs : List α} {x y : α} {k : Nat}
    (h : (xs ++ [x])[k]? = some y) :
    (k < xs.length ∧ xs[k]? = some y) ∨ (k = xs.length ∧ x = y) := by
  rw [List.getElem?_append] at h
  split at h
  · next hLt => exact .inl ⟨hLt, h⟩
  · next hNotLt =>
    obtain ⟨hEq, rfl⟩ : k - xs.length = 0 ∧ x = y := by simpa [List.getElem?_singleton] using h
    exact .inr ⟨by omega, rfl⟩

namespace Tree

/-- The last section of a tree is `current`, and `closed` are the sections in front of it. -/
def EndsWith (t : Tree) (closed : List Section) (current : Section) : Prop :=
  t.sections.toList = closed ++ [current]

theorem exists_endsWith {t : Tree} {n : Nat} (h : t.sections.size = n + 1) :
    ∃ closed s, t.EndsWith closed s ∧ closed.length = n := by
  have hNe : t.sections.toList ≠ [] := by
    intro hNil
    have hSize := congrArg List.length hNil
    simp [h] at hSize
  refine ⟨t.sections.toList.dropLast, t.sections.toList.getLast hNe, ?_, by simp [h]⟩
  exact (List.dropLast_concat_getLast hNe).symm

theorem EndsWith.size_eq {t : Tree} {closed : List Section} {s : Section}
    (h : t.EndsWith closed s) : t.sections.size = closed.length + 1 := by
  simpa using congrArg List.length h

theorem EndsWith.getElem? {t : Tree} {closed : List Section} {s : Section}
    (h : t.EndsWith closed s) (i : Nat) : t.sections[i]? = (closed ++ [s])[i]? := by
  rw [← Array.getElem?_toList, h]

theorem EndsWith.back? {t : Tree} {closed : List Section} {s : Section}
    (h : t.EndsWith closed s) : t.sections.back? = some s := by
  rw [← Array.getLast?_toList, h, List.getLast?_concat]

theorem EndsWith.kind? {t : Tree} {closed : List Section} {s : Section}
    (h : t.EndsWith closed s) : t.kind? closed.length = s.attributes.kind := by
  have hs : t.sections[closed.length]? = some s := by simp [h.getElem?]
  simp [Tree.kind?, get?, hs]

/-- An edit of the last section leaves the sections in front of it as they are. -/
theorem EndsWith.edit {t : Tree} {closed : List Section} {s : Section}
    (h : t.EndsWith closed s) (e : Section.Edit) :
    (t.edit closed.length e).EndsWith closed (e.apply s) := by
  unfold EndsWith at h ⊢
  rw [sections_edit, Array.toList_modify, h]
  simp [List.modify_eq_take_drop]

theorem EndsWith.append {t : Tree} {closed : List Section} {s : Section}
    (h : t.EndsWith closed s) :
    t.append.EndsWith (closed ++ [s]) { id := closed.length + 1 } := by
  have hsize := h.size_eq
  unfold EndsWith at h ⊢
  rw [sections_append, Array.toList_push, h, hsize]

/-- The section that was last is closed and joins those in front. -/
theorem EndsWith.closeAndAppend {t : Tree} {closed : List Section} {s : Section}
    (h : t.EndsWith closed s) :
    (t.closeAndAppend closed.length).EndsWith (closed ++ [Section.Edit.close.apply s])
      { id := closed.length + 1 } :=
  (h.edit .close).append

end Tree

/-! ## The ways to read a line -/

namespace Section

/-- A section without a kind, once a tagged line has begun it. -/
def headed (s : Section) (ordinal : Nat) (code : Option Code) (framed : Framed) : Section :=
  (Edit.write (.ofFramed ordinal .header framed)).apply
    ((Edit.assignKind code).apply ((Edit.detectStatus code).apply s))

/-- A section with a kind, once a tagged line has continued it. -/
def continued (s : Section) (ordinal : Nat) (code : Option Code) (framed : Framed) : Section :=
  (Edit.write (.ofFramed ordinal .continuation framed)).apply
    (Edit.markMultiline.apply ((Edit.detectStatus code).apply s))

/-- The section at a place that a tagged line begins because the one before does not admit it. -/
def begun (place ordinal : Nat) (code : Option Code) (framed : Framed) : Section :=
  (Edit.write (.ofFramed ordinal .header framed)).apply
    ((Edit.assignKind code).apply { id := place })

/-- What becomes of the open section when a line is read, and the section that the line begins
behind it, whose place is `next`. -/
inductive Advance (next ordinal : Nat) (framed : Framed) (s : Section) :
    Section → Option Section → Prop where
  | basic (hTag : framed.tag = none) :
      Advance next ordinal framed s
        ((Edit.write (.ofFramed ordinal .basic framed)).apply s) none
  | header {tag : Tag} (hTag : framed.tag = some tag) (hKind : s.attributes.kind = none)
      (hEnd : endsSection tag.code? = false) :
      Advance next ordinal framed s (s.headed ordinal tag.code? framed) none
  | loneHeader {tag : Tag} (hTag : framed.tag = some tag) (hKind : s.attributes.kind = none)
      (hEnd : endsSection tag.code? = true) :
      Advance next ordinal framed s (Edit.close.apply (s.headed ordinal tag.code? framed))
        (some { id := next })
  | continuation {tag : Tag} {kind : Kind} (hTag : framed.tag = some tag)
      (hKind : s.attributes.kind = some kind) (hAdmits : kind.admits tag.code? = true)
      (hEnd : endsSection tag.code? = false) :
      Advance next ordinal framed s (s.continued ordinal tag.code? framed) none
  | lastContinuation {tag : Tag} {kind : Kind} (hTag : framed.tag = some tag)
      (hKind : s.attributes.kind = some kind) (hAdmits : kind.admits tag.code? = true)
      (hEnd : endsSection tag.code? = true) :
      Advance next ordinal framed s (Edit.close.apply (s.continued ordinal tag.code? framed))
        (some { id := next })
  | leaving {tag : Tag} {kind : Kind} (hTag : framed.tag = some tag)
      (hKind : s.attributes.kind = some kind) (hAdmits : kind.admits tag.code? = false) :
      Advance next ordinal framed s
        (Edit.close.apply ((Edit.detectStatus tag.code?).apply s))
        (some (begun next ordinal tag.code? framed))

theorem lines_headed (s : Section) (ordinal : Nat) (code : Option Code) (framed : Framed) :
    (s.headed ordinal code framed).lines = s.lines.push (.ofFramed ordinal .header framed) := by
  unfold headed Edit.assignKind
  dsimp only [Edit.write]
  split <;> rfl

theorem lines_continued (s : Section) (ordinal : Nat) (code : Option Code) (framed : Framed) :
    (s.continued ordinal code framed).lines =
      s.lines.push (.ofFramed ordinal .continuation framed) := rfl

theorem lines_begun (place ordinal : Nat) (code : Option Code) (framed : Framed) :
    (begun place ordinal code framed).lines = #[.ofFramed ordinal .header framed] := rfl

/-- The header gives a section its kind. -/
theorem kind_headed {s : Section} (hKind : s.attributes.kind = none) (ordinal : Nat)
    (code : Option Code) (framed : Framed) :
    (s.headed ordinal code framed).attributes.kind = some (Kind.ofCode? code) := by
  simp [headed, Edit.assignKind, Edit.detectStatus, Edit.detect, Edit.write, hKind]

section Advance

variable {place ordinal : Nat} {framed : Framed} {s s' : Section} {begun : Option Section}

/-- There is only one way to read a line. -/
theorem Advance.unique {t' : Section} {begun' : Option Section}
    (h : s.Advance place ordinal framed s' begun) (h' : s.Advance place ordinal framed t' begun') :
    s' = t' ∧ begun = begun' := by
  cases h <;> cases h' <;> simp_all

/-- Lines are only ever added at the end of a section. -/
theorem Advance.lines_eq (h : s.Advance place ordinal framed s' begun) :
    s'.lines = s.lines ∨ ∃ l, s'.lines = s.lines.push l := by
  cases h with
  | basic => exact .inr ⟨_, rfl⟩
  | header => exact .inr ⟨_, lines_headed _ _ _ _⟩
  | loneHeader => exact .inr ⟨_, lines_headed _ _ _ _⟩
  | continuation => exact .inr ⟨_, rfl⟩
  | lastContinuation => exact .inr ⟨_, rfl⟩
  | leaving => exact .inl rfl

/-- The line read is put behind the lines of the section, or begins the next one. -/
theorem Advance.lines_concat (h : s.Advance place ordinal framed s' begun) :
    ∃ role, (s' :: begun.toList).flatMap (·.lines.toList) =
      s.lines.toList ++ [.ofFramed ordinal role framed] := by
  cases h with
  | basic => exact ⟨.basic, by simp [Edit.write]⟩
  | header => exact ⟨.header, by simp [lines_headed]⟩
  | loneHeader => exact ⟨.header, by simp [Edit.close, lines_headed]⟩
  | continuation => exact ⟨.continuation, by simp [lines_continued]⟩
  | lastContinuation => exact ⟨.continuation, by simp [Edit.close, lines_continued]⟩
  | leaving => exact ⟨.header, by simp [Edit.close, Edit.detectStatus, lines_begun]⟩

end Advance

/-- The edits that a line makes, or any other user of a tree through a cursor. -/
inductive Edit.ByCursor : Edit → Prop where
  | assignKind (code : Option Code) : ByCursor (assignKind code)
  | detectStatus (code : Option Code) : ByCursor (detectStatus code)
  | markMultiline : ByCursor markMultiline
  | write (line : Line) : ByCursor (write line)
  | close : ByCursor close

end Section

/-- What edits of the last section keep, and what a new section keeps. -/
structure Tree.Kept (P : Tree → Prop) : Prop where
  edit : ∀ {t : Tree} {last : Nat} {e : Section.Edit}, t.sections.size = last + 1 → e.ByCursor →
    P t → P (t.edit last e)
  append : ∀ {t : Tree}, P t → P t.append

theorem Tree.Kept.closeAndAppend {P : Tree → Prop} (hP : Kept P) {t : Tree} {last : Nat}
    (hSize : t.sections.size = last + 1) (h : P t) : P (t.closeAndAppend last) :=
  hP.append (hP.edit hSize .close h)

namespace Grouping

/-- Reading a line takes one of the six ways: the sections in front stay, and the cursor goes to
the section begun if there is one. -/
theorem consume_advance {t : Tree} {closed : List Section} {s : Section}
    (h : t.EndsWith closed s) (ordinal : Nat) (framed : Framed) :
    ∃ s' next, s.Advance (closed.length + 1) ordinal framed s' next ∧
      (consume t closed.length ordinal framed).1.sections.toList = closed ++ s' :: next.toList ∧
      (consume t closed.length ordinal framed).2 = closed.length + next.toList.length := by
  unfold consume
  cases hTag : framed.tag with
  | none => exact ⟨_, _, .basic hTag, h.edit _, rfl⟩
  | some tag =>
    have hd := h.edit (.detectStatus tag.code?)
    have hKind? : (t.edit closed.length (.detectStatus tag.code?)).kind? closed.length =
        s.attributes.kind := hd.kind?
    dsimp only
    rw [hKind?]
    cases hKind : s.attributes.kind with
    | none =>
      have hh : Tree.EndsWith _ closed (s.headed ordinal tag.code? framed) :=
        (hd.edit (.assignKind tag.code?)).edit (.write (.ofFramed ordinal .header framed))
      cases hEnd : Section.endsSection tag.code? with
      | false => exact ⟨_, _, .header hTag hKind hEnd, hh, rfl⟩
      | true =>
        refine ⟨_, _, .loneHeader hTag hKind hEnd, ?_, ?_⟩
        · simpa [Tree.EndsWith] using hh.closeAndAppend
        · simpa [Tree.nextId] using hh.size_eq
    | some kind =>
      cases hAdmits : kind.admits tag.code? with
      | true =>
        simp only [hAdmits, if_true]
        have hc : Tree.EndsWith _ closed (s.continued ordinal tag.code? framed) :=
          (hd.edit .markMultiline).edit (.write (.ofFramed ordinal .continuation framed))
        cases hEnd : Section.endsSection tag.code? with
        | false => exact ⟨_, _, .continuation hTag hKind hAdmits hEnd, hc, rfl⟩
        | true =>
          refine ⟨_, _, .lastContinuation hTag hKind hAdmits hEnd, ?_, ?_⟩
          · simpa [Tree.EndsWith] using hc.closeAndAppend
          · simpa [Tree.nextId] using hc.size_eq
      | false =>
        simp only [hAdmits, Bool.false_eq_true, if_false]
        have hNext : (t.edit closed.length (.detectStatus tag.code?)).nextId =
            closed.length + 1 := hd.size_eq
        have ha := hd.closeAndAppend
        have hb : Tree.EndsWith _ _ (Section.begun (closed.length + 1) ordinal tag.code? framed) :=
          (ha.edit (.assignKind tag.code?)).edit (.write (.ofFramed ordinal .header framed))
        refine ⟨_, _, .leaving hTag hKind hAdmits, ?_, hNext⟩
        simpa [Tree.EndsWith, hNext] using hb

/-- Whatever edits of the last section and new sections keep is kept when a line is read. -/
theorem consume_kept {P : Tree → Prop} (hP : Tree.Kept P) {t : Tree} {last : Nat}
    (hSize : t.sections.size = last + 1) (h : P t) (ordinal : Nat) (framed : Framed) :
    P (consume t last ordinal framed).1 := by
  unfold consume
  cases framed.tag with
  | none => exact hP.edit hSize (.write _) h
  | some tag =>
    have hd := hP.edit hSize (.detectStatus tag.code?) h
    dsimp only
    split
    · have hh := hP.edit (by simpa using hSize) (.write (.ofFramed ordinal .header framed))
        (hP.edit (by simpa using hSize) (.assignKind tag.code?) hd)
      split
      · exact hP.closeAndAppend (by simpa using hSize) hh
      · exact hh
    · split
      · have hc := hP.edit (by simpa using hSize) (.write (.ofFramed ordinal .continuation framed))
          (hP.edit (by simpa using hSize) .markMultiline hd)
        split
        · exact hP.closeAndAppend (by simpa using hSize) hc
        · exact hc
      · have hn := hP.closeAndAppend (by simpa using hSize) hd
        exact hP.edit (by simp [Tree.closeAndAppend, Tree.sections_append, Tree.nextId]) (.write _)
          (hP.edit (by simp [Tree.closeAndAppend, Tree.sections_append, Tree.nextId])
            (.assignKind _) hn)

/-- What a line does to the sections depends on the sections alone, whatever changes wait beside
them. -/
theorem consume_congr {t u : Tree} (h : t.sections = u.sections) (cursor ordinal : Nat)
    (framed : Framed) :
    (consume t cursor ordinal framed).1.sections = (consume u cursor ordinal framed).1.sections ∧
      (consume t cursor ordinal framed).2 = (consume u cursor ordinal framed).2 := by
  have hKind : ∀ e, (t.edit cursor e).kind? cursor = (u.edit cursor e).kind? cursor := by
    intro e
    simp only [Tree.kind?, Tree.get?, Tree.sections_edit, h]
  unfold consume
  cases framed.tag with
  | none => exact ⟨by simp only [Tree.sections_edit, h], rfl⟩
  | some tag =>
    dsimp only
    rw [hKind]
    split
    · split <;>
        simp [Tree.closeAndAppend, Tree.sections_append, Tree.sections_edit, Tree.nextId, h]
    · split
      · split <;>
          simp [Tree.closeAndAppend, Tree.sections_append, Tree.sections_edit, Tree.nextId, h]
      · simp [Tree.closeAndAppend, Tree.sections_append, Tree.sections_edit, Tree.nextId, h]

end Grouping

end BuildLog
