import BuildLog.Proofs.Grouping.Run

/-!
# The lines of all sections

The lines of the sections, one section after the other, are the lines of the log: none is lost, none
is there twice, and they keep their order. Each shows what its raw line held, whatever part it plays
in its section.

* `Line.Shows`, `Line.Shown`: what a line has to do with a raw one, and all lines with a log.
* `Section.shown_advance`: every way to read a line adds it behind all others.
* `Grouping.lines_shown`: the sections hold the lines of the log.
-/

namespace BuildLog

/-- A line shows at a place of the log what a frame held. -/
structure Line.Shows (l : Line) (ordinal : Nat) (framed : Framed) : Prop where
  ordinal_eq : l.ordinal = ordinal
  timestamp_eq : l.timestamp = framed.timestamp
  tag_eq : l.tag = framed.tag
  content_untagged : framed.tag = none → l.content = Content.ofText framed.content
  content_tagged : ∀ tag, framed.tag = some tag →
    l.content = Content.render tag.code? framed.content

theorem Line.shows_ofFramed (ordinal : Nat) (role : Role) (framed : Framed) :
    (ofFramed ordinal role framed).Shows ordinal framed where
  ordinal_eq := rfl
  timestamp_eq := rfl
  tag_eq := rfl
  content_untagged hTag := by simp [ofFramed, hTag]
  content_tagged tag hTag := by simp [ofFramed, hTag]

/-- Some lines show those of a log, one by one. -/
structure Line.Shown (lines : List Line) (raws : List Text) : Prop where
  length_eq : lines.length = raws.length
  shows : ∀ k raw, raws[k]? = some raw →
    ∃ l : Line, lines[k]? = some l ∧ l.Shows (k + 1) (.ofRaw raw)

namespace Line.Shown

variable {lines : List Line} {raws : List Text}

theorem concat (h : Shown lines raws) {l : Line} {raw : Text}
    (hl : l.Shows (raws.length + 1) (.ofRaw raw)) : Shown (lines ++ [l]) (raws ++ [raw]) := by
  refine ⟨by simp [h.length_eq], ?_⟩
  intro k raw' hRaw
  obtain ⟨hLt, hRaw⟩ | ⟨rfl, rfl⟩ := getElem?_concat_cases hRaw
  · rw [List.getElem?_append_left (h.length_eq ▸ hLt)]
    exact h.shows k raw' hRaw
  · exact ⟨l, by simp [← h.length_eq], hl⟩

/-- The ordinals of the lines shown count up from one. -/
theorem map_ordinal (h : Shown lines raws) :
    lines.map (·.ordinal) = List.range' 1 raws.length := by
  apply List.ext_getElem
  · simp [h.length_eq]
  · intro k hk hk'
    have hLt : k < raws.length := by simpa using hk'
    obtain ⟨l, hl, hShows⟩ := h.shows k raws[k] (List.getElem?_eq_getElem hLt)
    obtain ⟨hIndex, rfl⟩ := List.getElem?_eq_some_iff.mp hl
    simp [hShows.ordinal_eq, Nat.add_comm]

end Line.Shown

namespace Section

/-- The lines of some sections, one section after the other. -/
def allLines (sections : List Section) : List Line := sections.flatMap (·.lines.toList)

/-- Whichever way a line is read, it is put behind all lines there are. -/
theorem Advance.allLines_concat {place ordinal : Nat} {framed : Framed} {s s' : Section}
    {begun : Option Section} (h : s.Advance place ordinal framed s' begun)
    (closed : List Section) :
    ∃ role, allLines (closed ++ s' :: begun.toList) =
      allLines (closed ++ [s]) ++ [.ofFramed ordinal role framed] := by
  obtain ⟨role, hLines⟩ := h.lines_concat
  refine ⟨role, ?_⟩
  rw [allLines, List.flatMap_append, hLines]
  simp [allLines]

theorem shown_advance {closed : List Section} {s s' : Section} {raws : List Text} {raw : Text}
    {place : Nat} {begun : Option Section} (h : Line.Shown (allLines (closed ++ [s])) raws)
    (hAdvance : s.Advance place (raws.length + 1) (.ofRaw raw) s' begun) :
    Line.Shown (allLines (closed ++ s' :: begun.toList)) (raws ++ [raw]) := by
  obtain ⟨role, hLines⟩ := hAdvance.allLines_concat closed
  rw [hLines]
  exact h.concat (Line.shows_ofFramed _ role _)

/-- Ordinals that are consecutive over all sections are so inside each of them. -/
theorem consecutive_of_mem {sections : List Section} {n : Nat}
    (h : (allLines sections).map (·.ordinal) = List.range' 1 n) {s : Section}
    (hs : s ∈ sections) :
    ∃ first, s.lines.toList.map (·.ordinal) = List.range' first s.lines.size := by
  obtain ⟨before, after, rfl⟩ := List.append_of_mem hs
  simp only [allLines, List.flatMap_append, List.flatMap_cons, List.map_append] at h
  obtain ⟨_, -, -, hRest⟩ := List.range'_eq_append_iff.mp h.symm
  obtain ⟨k, -, hSection, -⟩ := List.range'_eq_append_iff.mp hRest.symm
  have hk : s.lines.size = k := by simpa using congrArg List.length hSection
  exact ⟨_, hk ▸ hSection⟩

end Section

namespace Grouping

open Section

theorem invariant_shown :
    Invariant fun closed s raws => Line.Shown (allLines (closed ++ [s])) raws where
  start := ⟨by simp [allLines], by simp⟩
  stay h hAdvance := shown_advance h hAdvance
  leave h hAdvance := by simpa using shown_advance h hAdvance

theorem Has.shown {g : Grouping} {raws : List Text}
    (h : g.Has (fun closed s raws => Line.Shown (allLines (closed ++ [s])) raws) raws) :
    Line.Shown (allLines g.tree.sections.toList) raws := by
  obtain ⟨rfl, hEmpty, -, -⟩ | ⟨closed, s, hEnds, -, -, hShown⟩ := h.sections
  · rw [hEmpty]
    exact invariant_shown.start
  · rwa [show g.tree.sections.toList = closed ++ [s] from hEnds]

/-- **No line is lost, doubled or moved**: whatever batches a log comes in, its lines stand in the
sections in their order, one for each raw line, and each shows its raw line. -/
theorem lines_shown (inputs : List Input) :
    let g := run {} inputs
    let raws := inputs.flatMap Input.given
    g.lineCount = raws.length ∧ Line.Shown (allLines g.tree.sections.toList) raws ∧
      ∀ s ∈ g.tree.sections, ∃ first,
        s.lines.toList.map (·.ordinal) = List.range' first s.lines.size := by
  intro g raws
  obtain ⟨raws', hReached⟩ := run_has invariant_shown false inputs
  have hQueue : g.queue = [] := hReached.queue_eq (by simp [deferred_run])
  obtain rfl : raws' = raws := by simpa [← hReached.given_eq, raws] using hQueue.symm
  have hShown := hReached.has.shown
  have hCount : g.lineCount = raws.length := by
    obtain ⟨hRead, -, -, hCount⟩ | ⟨_, _, -, -, hCount, -⟩ := hReached.has.sections
    · rwa [hRead]
    · exact hCount
  refine ⟨hCount, hShown, fun s hs => ?_⟩
  exact consecutive_of_mem hShown.map_ordinal (Array.mem_toList_iff.mpr hs)

end Grouping

end BuildLog
