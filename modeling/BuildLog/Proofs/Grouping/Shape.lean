import BuildLog.Proofs.Grouping.Run
import Mathlib.Data.List.Chain

/-!
# The shape of sections

A section begins with its first tagged line, the header, which gives it its kind. Every later tagged
line continues it and is admitted by that kind, and a continuation that ends the section is its last
line. A new section is begun only where it has to be: behind a line that ends its section, or with a
header that the section before does not admit.

* `Section.Shaped`, `Section.Follows`: what this says of one section and of two neighbours.
* `Section.Grouped.stay`, `Section.Grouped.leave`: every way to read a line keeps it.
* `Grouping.sections_shaped`: it holds in every state that is reached.
-/

namespace BuildLog

namespace Section

/-- The tagged lines of a section, in order. -/
def tagged (s : Section) : List Line := s.lines.toList.filter (·.tag.isSome)

/-- What the lines of a section have to do with each other and with its attributes. -/
structure Shaped (s : Section) : Prop where
  /-- The basic lines are those without a tag. -/
  basic : ∀ l ∈ s.lines, l.role = .basic ↔ l.tag = none
  /-- The first tagged line is the header, and all later ones continue it. -/
  header : ∀ first later, s.tagged = first :: later →
    first.role = .header ∧ ∀ l ∈ later, l.role = .continuation
  /-- The kind is that of the first tagged line, and there is none without such a line. -/
  kind : s.attributes.kind = s.tagged.head?.map fun first => Kind.ofCode? first.code?
  /-- Continuations are admitted by the kind. -/
  admitted : ∀ l ∈ s.lines, l.role = .continuation →
    ∃ kind, s.attributes.kind = some kind ∧ kind.admits l.code? = true
  /-- A continuation that ends the section is its last line. -/
  ended : ∀ i l, s.lines[i]? = some l → l.role = .continuation →
    endsSection l.code? = true → i + 1 = s.lines.size
  /-- A section is foldable exactly when it has a continuation. -/
  multiline : s.attributes.multiline = true ↔ ∃ l ∈ s.lines, l.role = .continuation

/-- What gives reason to begin a section behind another: the line that ended that one, or a header
that it does not admit. -/
def Follows (s next : Section) : Prop :=
  (∃ l, s.lines.back? = some l ∧ endsSection l.code? = true) ∨
    ∃ l, next.lines[0]? = some l ∧ l.role = .header ∧
      ∀ kind, s.attributes.kind = some kind → kind.admits l.code? = false

/-- No continuation of a section ends it. Its header may, where a line of another kind begins it. -/
def Unended (s : Section) : Prop :=
  ∀ l ∈ s.lines, l.role = .continuation → endsSection l.code? = false

/-! ## Single edits -/

theorem tagged_write (s : Section) (l : Line) :
    ((Edit.write l).apply s).tagged = s.tagged ++ [l].filter (·.tag.isSome) := by
  simp [tagged, Edit.write]

theorem mem_tagged {s : Section} {l : Line} : l ∈ s.tagged ↔ l ∈ s.lines ∧ l.tag.isSome := by
  simp [tagged]

theorem Shaped.tagged_eq_nil {s : Section} (h : s.Shaped) (hKind : s.attributes.kind = none) :
    s.tagged = [] := by
  have hHead := h.kind
  rw [hKind] at hHead
  simpa using hHead.symm

/-- A section without a kind has no tagged line. -/
theorem Shaped.untagged_of_kind_eq_none {s : Section} (h : s.Shaped)
    (hKind : s.attributes.kind = none) {l : Line} (hl : l ∈ s.lines) : l.tag = none := by
  by_contra hTag
  have hMem : l ∈ s.tagged := mem_tagged.mpr ⟨hl, Option.isSome_iff_ne_none.mpr hTag⟩
  simp [h.tagged_eq_nil hKind] at hMem

theorem shaped_new (id : Nat) : Shaped { id := id } where
  basic := by simp
  header := by simp [tagged]
  kind := by simp [tagged]
  admitted := by simp
  ended := by simp
  multiline := by simp

/-- The shape of a section does not depend on its verdict or on whether it is folded. -/
theorem Shaped.congr {s s' : Section} (h : s.Shaped) (hLines : s'.lines = s.lines)
    (hKind : s'.attributes.kind = s.attributes.kind)
    (hMultiline : s'.attributes.multiline = s.attributes.multiline) : s'.Shaped := by
  have hTagged : s'.tagged = s.tagged := by simp [tagged, hLines]
  constructor
  · simpa only [hLines] using h.basic
  · simpa only [hTagged] using h.header
  · simpa only [hTagged, hKind] using h.kind
  · simpa only [hLines, hKind] using h.admitted
  · simpa only [hLines] using h.ended
  · simpa only [hLines, hMultiline] using h.multiline

theorem Shaped.detectStatus {s : Section} (h : s.Shaped) (code : Option Code) :
    ((Edit.detectStatus code).apply s).Shaped :=
  h.congr rfl rfl rfl

theorem Shaped.close {s : Section} (h : s.Shaped) : (Edit.close.apply s).Shaped :=
  h.congr rfl rfl rfl

/-- A line behind lines that do not end the section keeps the last line the only one that may. -/
theorem Unended.ended_write {s : Section} (h : s.Unended) (l : Line) :
    ∀ i m, ((Edit.write l).apply s).lines[i]? = some m → m.role = .continuation →
      endsSection m.code? = true → i + 1 = ((Edit.write l).apply s).lines.size := by
  intro i m hm hContinues hEnd
  simp only [Edit.write, Array.getElem?_push] at hm
  simp only [Edit.write, Array.size_push]
  split at hm
  · omega
  · have hSome := h m (Array.mem_of_getElem? hm) hContinues
    simp [hSome] at hEnd

theorem exists_continuation_push {lines : Array Line} {l : Line} (h : l.role ≠ .continuation) :
    (∃ m ∈ lines.push l, m.role = .continuation) ↔ ∃ m ∈ lines, m.role = .continuation := by
  constructor
  · rintro ⟨m, hm, hContinues⟩
    obtain hm | rfl := Array.mem_push.mp hm
    · exact ⟨m, hm, hContinues⟩
    · exact absurd hContinues h
  · rintro ⟨m, hm, hContinues⟩
    exact ⟨m, Array.mem_push.mpr (.inl hm), hContinues⟩

theorem Unended.write {s : Section} (h : s.Unended) {l : Line}
    (hl : l.role = .continuation → endsSection l.code? = false) :
    ((Edit.write l).apply s).Unended := by
  intro m hm
  obtain hm | rfl := Array.mem_push.mp hm
  · exact h m hm
  · exact hl

/-! ## Lines of each role -/

theorem Shaped.basic_line {s : Section} (h : s.Shaped) (hOpen : s.Unended) {ordinal : Nat}
    {framed : Framed} (hTag : framed.tag = none) :
    ((Edit.write (.ofFramed ordinal .basic framed)).apply s).Shaped := by
  set l := Line.ofFramed ordinal .basic framed with hl
  have hRole : l.role = .basic := rfl
  have hNone : l.tag = none := hTag
  have hTagged : ((Edit.write l).apply s).tagged = s.tagged := by simp [tagged_write, hNone]
  constructor
  · intro m hm
    obtain hm | rfl := Array.mem_push.mp hm
    · exact h.basic m hm
    · simp [hRole, hNone]
  · simpa only [hTagged] using h.header
  · rw [hTagged]
    exact h.kind
  · intro m hm hContinues
    obtain hm | rfl := Array.mem_push.mp hm
    · exact h.admitted m hm hContinues
    · simp [hRole] at hContinues
  · exact hOpen.ended_write l
  · exact h.multiline.trans (exists_continuation_push (by simp [hRole])).symm

/-- A tagged line written into a section without a kind heads it. -/
theorem Shaped.header_line {s : Section} (h : s.Shaped) (hKind : s.attributes.kind = none)
    {ordinal : Nat} {framed : Framed} {tag : Tag} (hTag : framed.tag = some tag) :
    ((Edit.write (.ofFramed ordinal .header framed)).apply
      ((Edit.assignKind tag.code?).apply s)).Shaped := by
  set l := Line.ofFramed ordinal .header framed with hl
  have hRole : l.role = .header := rfl
  have hSome : l.tag = some tag := hTag
  have hCode : l.code? = tag.code? := by simp [Line.code?, hSome]
  have hAssigned : (Edit.assignKind tag.code?).apply s =
      { s with attributes := { s.attributes with kind := some (Kind.ofCode? tag.code?) } } := by
    simp [Edit.assignKind, hKind]
  have hUntagged : ∀ m ∈ s.lines, m.role = .basic := fun m hm =>
    (h.basic m hm).mpr (h.untagged_of_kind_eq_none hKind hm)
  have hTagged : ((Edit.write l).apply ((Edit.assignKind tag.code?).apply s)).tagged = [l] := by
    have hNil : ((Edit.assignKind tag.code?).apply s).tagged = [] := by
      rw [hAssigned]
      exact h.tagged_eq_nil hKind
    simp [tagged_write, hNil, hSome]
  rw [hAssigned] at hTagged ⊢
  constructor
  · intro m hm
    obtain hm | rfl := Array.mem_push.mp hm
    · exact h.basic m hm
    · simp [hRole, hSome]
  · rw [hTagged]
    rintro first later ⟨⟩
    exact ⟨hRole, by simp⟩
  · simp only [hTagged, List.head?_cons, Option.map_some, hCode]
    rfl
  · intro m hm hContinues
    obtain hm | rfl := Array.mem_push.mp hm
    · simp [hUntagged m hm] at hContinues
    · simp [hRole] at hContinues
  · intro i m hm hContinues
    obtain hm | rfl := Array.mem_push.mp (Array.mem_of_getElem? hm)
    · simp [hUntagged m hm] at hContinues
    · simp [hRole] at hContinues
  · exact h.multiline.trans (exists_continuation_push (by simp [hRole])).symm

/-- A tagged line that the kind admits continues a section not yet ended and makes it foldable. -/
theorem Shaped.continuation_line {s : Section} (h : s.Shaped) (hOpen : s.Unended) {kind : Kind}
    (hKind : s.attributes.kind = some kind) {ordinal : Nat} {framed : Framed} {tag : Tag}
    (hTag : framed.tag = some tag) (hAdmits : kind.admits tag.code? = true) :
    ((Edit.write (.ofFramed ordinal .continuation framed)).apply
      (Edit.markMultiline.apply s)).Shaped := by
  set l := Line.ofFramed ordinal .continuation framed with hl
  have hRole : l.role = .continuation := rfl
  have hSome : l.tag = some tag := hTag
  have hCode : l.code? = tag.code? := by simp [Line.code?, hSome]
  obtain ⟨first, later, hFirst⟩ : ∃ first later, s.tagged = first :: later := by
    cases hs : s.tagged with
    | nil => simp [h.kind, hs] at hKind
    | cons first later => exact ⟨first, later, rfl⟩
  have hTagged : ((Edit.write l).apply (Edit.markMultiline.apply s)).tagged =
      first :: (later ++ [l]) := by
    have hSame : (Edit.markMultiline.apply s).tagged = s.tagged := rfl
    simp [tagged_write, hSame, hFirst, hSome]
  constructor
  · intro m hm
    obtain hm | rfl := Array.mem_push.mp hm
    · exact h.basic m hm
    · simp [hRole, hSome]
  · rw [hTagged]
    rintro _ _ ⟨⟩
    obtain ⟨hHeader, hLater⟩ := h.header first later hFirst
    refine ⟨hHeader, fun m hm => ?_⟩
    obtain hm | hm := List.mem_append.mp hm
    · exact hLater m hm
    · rw [List.mem_singleton.mp hm, hRole]
  · rw [hTagged]
    exact h.kind.trans (by simp [hFirst])
  · intro m hm hContinues
    obtain hm | rfl := Array.mem_push.mp hm
    · exact h.admitted m hm hContinues
    · exact ⟨kind, hKind, hCode ▸ hAdmits⟩
  · exact (show (Edit.markMultiline.apply s).Unended from hOpen).ended_write l
  · exact ⟨fun _ => ⟨l, Array.mem_push.mpr (.inr rfl), hRole⟩, fun _ => rfl⟩

theorem Shaped.headed {s : Section} (h : s.Shaped) (hKind : s.attributes.kind = none)
    {ordinal : Nat} {framed : Framed} {tag : Tag} (hTag : framed.tag = some tag) :
    (s.headed ordinal tag.code? framed).Shaped :=
  (h.detectStatus tag.code?).header_line hKind hTag

theorem Shaped.continued {s : Section} (h : s.Shaped) (hOpen : s.Unended) {kind : Kind}
    (hKind : s.attributes.kind = some kind) {ordinal : Nat} {framed : Framed} {tag : Tag}
    (hTag : framed.tag = some tag) (hAdmits : kind.admits tag.code? = true) :
    (s.continued ordinal tag.code? framed).Shaped :=
  (h.detectStatus tag.code?).continuation_line hOpen hKind hTag hAdmits

theorem shaped_begun {place ordinal : Nat} {framed : Framed} {tag : Tag}
    (hTag : framed.tag = some tag) : (begun place ordinal tag.code? framed).Shaped :=
  (shaped_new place).header_line rfl hTag

theorem Unended.headed {s : Section} (h : s.Unended) (ordinal : Nat) (code : Option Code)
    (framed : Framed) : (s.headed ordinal code framed).Unended := by
  intro l hl hContinues
  rw [lines_headed] at hl
  obtain hl | rfl := Array.mem_push.mp hl
  · exact h l hl hContinues
  · cases hContinues

theorem code?_ofFramed {ordinal : Nat} {role : Role} {framed : Framed} {tag : Tag}
    (hTag : framed.tag = some tag) : (Line.ofFramed ordinal role framed).code? = tag.code? := by
  simp [Line.code?, Line.ofFramed, hTag]

/-! ## Every way to read a line -/

section Advance

variable {place ordinal : Nat} {framed : Framed} {s s' next : Section} {begun : Option Section}

/-- However a line is read, the section it finds open keeps its shape. -/
theorem Advance.shaped (h : s.Advance place ordinal framed s' begun) (hs : s.Shaped)
    (hOpen : s.Unended) : s'.Shaped := by
  cases h with
  | basic hTag => exact hs.basic_line hOpen hTag
  | header hTag hKind => exact hs.headed hKind hTag
  | loneHeader hTag hKind => exact (hs.headed hKind hTag).close
  | continuation hTag hKind hAdmits => exact hs.continued hOpen hKind hTag hAdmits
  | lastContinuation hTag hKind hAdmits => exact (hs.continued hOpen hKind hTag hAdmits).close
  | leaving => exact (hs.detectStatus _).close

theorem Advance.unended (h : s.Advance place ordinal framed s' none) (hOpen : s.Unended) :
    s'.Unended := by
  cases h with
  | basic hTag => exact hOpen.write (by simp [Line.ofFramed])
  | header => exact hOpen.headed _ _ _
  | continuation hTag hKind hAdmits hEnd => exact hOpen.write fun _ => code?_ofFramed hTag ▸ hEnd

theorem Advance.first_line (h : s.Advance place ordinal framed s' begun) {l : Line}
    (hl : s.lines[0]? = some l) : s'.lines[0]? = some l := by
  obtain hLines | ⟨m, hLines⟩ := h.lines_eq
  · rw [hLines, hl]
  · have hSize : 0 < s.lines.size := by
      by_contra hEmpty
      simp [Array.getElem?_eq_none (Nat.le_of_not_lt hEmpty)] at hl
    rw [hLines, Array.getElem?_push, if_neg (by omega), hl]

theorem Advance.typed (h : s.Advance place ordinal framed s' (some next)) :
    s'.attributes.kind.isSome := by
  cases h with
  | loneHeader hTag hKind => exact Option.isSome_of_eq_some (kind_headed hKind ordinal _ framed)
  | lastContinuation hTag hKind => exact Option.isSome_of_eq_some hKind
  | leaving hTag hKind => exact Option.isSome_of_eq_some hKind

theorem Advance.next_shaped (h : s.Advance place ordinal framed s' (some next)) :
    next.Shaped ∧ next.Unended := by
  cases h with
  | loneHeader => exact ⟨shaped_new _, by simp [Unended]⟩
  | lastContinuation => exact ⟨shaped_new _, by simp [Unended]⟩
  | leaving hTag =>
    refine ⟨shaped_begun hTag, fun l hl hContinues => ?_⟩
    rw [lines_begun, List.mem_toArray, List.mem_singleton] at hl
    subst hl
    cases hContinues

/-- A further section is begun only where there is reason to. -/
theorem Advance.follows (h : s.Advance place ordinal framed s' (some next)) : s'.Follows next := by
  cases h with
  | loneHeader hTag hKind hEnd =>
    refine .inl ⟨.ofFramed ordinal .header framed, ?_, code?_ofFramed hTag ▸ hEnd⟩
    simp [Edit.close, lines_headed]
  | lastContinuation hTag hKind hAdmits hEnd =>
    refine .inl ⟨.ofFramed ordinal .continuation framed, ?_, code?_ofFramed hTag ▸ hEnd⟩
    simp [Edit.close, lines_continued]
  | leaving hTag hKind hAdmits =>
    refine .inr ⟨.ofFramed ordinal .header framed, rfl, rfl, ?_⟩
    intro kind hSome
    obtain rfl : _ = kind := Option.some.inj (hKind.symm.trans hSome)
    exact code?_ofFramed hTag ▸ hAdmits

end Advance

/-! ## All sections of a log -/

/-- The sections of a log while lines are read into the last one. -/
structure Grouped (closed : List Section) (s : Section) : Prop where
  closed_shaped : ∀ c ∈ closed, c.Shaped
  closed_typed : ∀ c ∈ closed, c.attributes.kind.isSome
  shaped : s.Shaped
  unended : s.Unended
  follows : (closed ++ [s]).IsChain Follows

theorem isChain_concat {closed : List Section} {s : Section} :
    (closed ++ [s]).IsChain Follows ↔
      closed.IsChain Follows ∧ ∀ c ∈ closed.getLast?, c.Follows s := by
  simp [List.isChain_append]

/-- A section goes on following the one before while it grows. -/
theorem Follows.grow {s next next' : Section} (h : s.Follows next)
    (hFirst : ∀ l, next.lines[0]? = some l → next'.lines[0]? = some l) : s.Follows next' :=
  h.imp_right fun ⟨l, hl, hHeader⟩ => ⟨l, hFirst l hl, hHeader⟩

theorem Grouped.follows_advance {closed : List Section} {s s' : Section} (h : Grouped closed s)
    {place ordinal : Nat} {framed : Framed} {begun : Option Section}
    (hAdvance : s.Advance place ordinal framed s' begun) : (closed ++ [s']).IsChain Follows := by
  obtain ⟨hChain, hLast⟩ := isChain_concat.mp h.follows
  refine isChain_concat.mpr ⟨hChain, fun c hc => ?_⟩
  exact Follows.grow (hLast c hc) fun _ => hAdvance.first_line

/-- A line that begins no further section keeps the sections grouped. -/
theorem Grouped.stay {closed : List Section} {s s' : Section} (h : Grouped closed s)
    {place ordinal : Nat} {framed : Framed}
    (hAdvance : s.Advance place ordinal framed s' none) : Grouped closed s' where
  closed_shaped := h.closed_shaped
  closed_typed := h.closed_typed
  shaped := hAdvance.shaped h.shaped h.unended
  unended := hAdvance.unended h.unended
  follows := h.follows_advance hAdvance

theorem Grouped.leave {closed : List Section} {s s' next : Section} (h : Grouped closed s)
    {place ordinal : Nat} {framed : Framed}
    (hAdvance : s.Advance place ordinal framed s' (some next)) :
    Grouped (closed ++ [s']) next := by
  obtain ⟨hNext, hNextOpen⟩ := hAdvance.next_shaped
  refine ⟨?_, ?_, hNext, hNextOpen, ?_⟩
  · intro c hc
    obtain hc | hc := List.mem_append.mp hc
    · exact h.closed_shaped c hc
    · exact List.mem_singleton.mp hc ▸ hAdvance.shaped h.shaped h.unended
  · intro c hc
    obtain hc | hc := List.mem_append.mp hc
    · exact h.closed_typed c hc
    · exact List.mem_singleton.mp hc ▸ hAdvance.typed
  · refine isChain_concat.mpr ⟨h.follows_advance hAdvance, ?_⟩
    simpa using hAdvance.follows

theorem grouped_new : Grouped [] { id := 0 } where
  closed_shaped := by simp
  closed_typed := by simp
  shaped := shaped_new 0
  unended := by simp [Unended]
  follows := by simp

theorem Shaped.lines_ne_empty {s : Section} (h : s.Shaped) (hKind : s.attributes.kind.isSome) :
    s.lines ≠ #[] := by
  intro hEmpty
  have hTagged : s.tagged = [] := by simp [tagged, hEmpty]
  simp [h.kind, hTagged] at hKind

end Section

namespace Grouping

open Section

theorem invariant_grouped : Invariant fun closed s _ => Grouped closed s where
  start := grouped_new
  stay h hAdvance := h.stay hAdvance
  leave h hAdvance := h.leave hAdvance

theorem Has.shaped {g : Grouping} {raws : List Text}
    (h : g.Has (fun closed s _ => Grouped closed s) raws) : ∀ s ∈ g.tree.sections, s.Shaped := by
  obtain ⟨-, hEmpty, -, -⟩ | ⟨closed, s, hEnds, -, -, hGrouped⟩ := h.sections
  · simp [hEmpty]
  · intro c hc
    rw [← Array.mem_toList_iff, hEnds] at hc
    obtain hc | hc := List.mem_append.mp hc
    · exact hGrouped.closed_shaped c hc
    · exact List.mem_singleton.mp hc ▸ hGrouped.shaped

/-- **The shape of the sections**, in every state that is reached: the lines of each section fit its
kind and each other, every section but the last has a kind, and none is begun without reason. -/
theorem sections_shaped (deferred : Bool) (inputs : List Input) :
    let sections := (run { deferred := deferred } inputs).tree.sections
    (∀ s ∈ sections, s.Shaped) ∧
      (∀ i s, sections[i]? = some s → i + 1 < sections.size →
        s.attributes.kind.isSome ∧ s.lines ≠ #[]) ∧
      ∀ i s next, sections[i]? = some s → sections[i + 1]? = some next → s.Follows next := by
  intro sections
  obtain ⟨raws, hReached⟩ := run_has invariant_grouped deferred inputs
  obtain ⟨-, hEmpty, -, -⟩ | ⟨closed, s, hEnds, -, -, h⟩ := hReached.has.sections
  · simp [sections, hEmpty]
  have hList : sections.toList = closed ++ [s] := hEnds
  have hSize : sections.size = closed.length + 1 := hEnds.size_eq
  have hClosed : ∀ i c, sections[i]? = some c → i + 1 < sections.size → c ∈ closed := by
    intro i c hc hLt
    rw [← Array.getElem?_toList, hList, List.getElem?_append_left (by omega)] at hc
    exact List.mem_of_getElem? hc
  refine ⟨hReached.has.shaped, ?_, ?_⟩
  · intro i c hc hLt
    have hMem := hClosed i c hc hLt
    have hTyped := h.closed_typed c hMem
    exact ⟨hTyped, (h.closed_shaped c hMem).lines_ne_empty hTyped⟩
  · intro i c next hc hNext
    have hChain := h.follows
    rw [← hList, List.isChain_iff_getElem] at hChain
    obtain ⟨hi, rfl⟩ := Array.getElem?_eq_some_iff.mp hc
    obtain ⟨hi', rfl⟩ := Array.getElem?_eq_some_iff.mp hNext
    have hPair := hChain i (by simpa using hi')
    rwa [Array.getElem_toList, Array.getElem_toList] at hPair

end Grouping

end BuildLog
