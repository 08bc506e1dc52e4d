import BuildLog.Proofs.Style.Sequences
import Mathlib.Data.List.Chain

/-!
# Canonical runs

A styled text has many cuts into runs, but only one in which no run is empty and neighbouring runs
differ in style. Decoding leaves this one, whatever the text is: sequences that break off, or that
change the style back before anything is written, leave no trace.

* `Run.Canonical.join_glyphs`: canonical runs are determined by their glyphs.
* `Builder.build_eq_decode`: runs that are built in one pass over the text, each held back until the
  style changes, are the decoded ones.
* `Escape.decode_canonical`: what holds of the runs of any text.
-/

namespace BuildLog

namespace Run

/-- Runs that cannot be joined any further. -/
structure Canonical (rs : List Run) : Prop where
  text_ne_nil : ∀ r ∈ rs, r.text ≠ []
  styles_differ : rs.IsChain (·.style ≠ ·.style)

theorem canonical_nil : Canonical [] := ⟨by simp, .nil⟩

theorem canonical_cons_iff (r : Run) (rs : List Run) :
    Canonical (r :: rs) ↔
      r.text ≠ [] ∧ (∀ next ∈ rs.head?, r.style ≠ next.style) ∧ Canonical rs := by
  constructor
  · rintro ⟨hText, hStyles⟩
    obtain ⟨hFirst, hRest⟩ := List.isChain_cons.mp hStyles
    exact ⟨hText r List.mem_cons_self, hFirst,
      fun next hNext => hText next (List.mem_cons_of_mem r hNext), hRest⟩
  · rintro ⟨hText, hFirst, hRest⟩
    refine ⟨fun next hNext => ?_, List.isChain_cons.mpr ⟨hFirst, hRest.styles_differ⟩⟩
    obtain rfl | hNext := List.mem_cons.mp hNext
    · exact hText
    · exact hRest.text_ne_nil next hNext

theorem Canonical.reverse {rs : List Run} (h : Canonical rs) : Canonical rs.reverse where
  text_ne_nil r hr := h.text_ne_nil r (List.mem_reverse.mp hr)
  styles_differ := by
    rw [List.isChain_reverse]
    exact h.styles_differ.imp fun _ _ hNe => hNe.symm

/-! ## Joining glyphs -/

theorem consGlyph_of_ne {g : Glyph} {rs : List Run} (h : ∀ r ∈ rs.head?, g.style ≠ r.style) :
    consGlyph g rs = ⟨[g.char], g.style⟩ :: rs := by
  cases rs with
  | nil => rfl
  | cons r rest => exact if_neg (h r rfl)

/-- A glyph in front joins the first run or makes one of its own. -/
theorem Canonical.consGlyph {rs : List Run} (h : Canonical rs) (g : Glyph) :
    Canonical (consGlyph g rs) := by
  cases rs with
  | nil => exact (canonical_cons_iff _ _).mpr ⟨List.cons_ne_nil _ _, by simp, h⟩
  | cons r rest =>
    by_cases hStyle : g.style = r.style
    · rw [Run.consGlyph, if_pos hStyle]
      obtain ⟨-, hFirst, hRest⟩ := (canonical_cons_iff r rest).mp h
      exact (canonical_cons_iff _ _).mpr ⟨List.cons_ne_nil _ _, hFirst, hRest⟩
    · rw [Run.consGlyph, if_neg hStyle]
      refine (canonical_cons_iff _ _).mpr ⟨List.cons_ne_nil _ _, ?_, h⟩
      rintro next hNext
      obtain rfl := Option.some.inj hNext
      exact hStyle

theorem join_canonical (gs : List Glyph) : Canonical (join gs) := by
  induction gs with
  | nil => exact canonical_nil
  | cons g gs ih => exact ih.consGlyph g

/-- Glyphs in front that make a run of their own. -/
theorem join_glyphs_append {r : Run} (hText : r.text ≠ []) {gs : List Glyph}
    (hFirst : ∀ next ∈ (join gs).head?, r.style ≠ next.style) :
    join (r.glyphs ++ gs) = r :: join gs := by
  obtain ⟨text, style⟩ := r
  induction text with
  | nil => exact absurd rfl hText
  | cons c text ih =>
    show Run.consGlyph ⟨c, style⟩ (join (glyphs ⟨text, style⟩ ++ gs)) = _
    by_cases hLast : text = []
    · subst hLast
      exact consGlyph_of_ne hFirst
    · rw [ih hLast hFirst]
      exact if_pos rfl

/-- Canonical runs are what their glyphs are joined to. -/
theorem Canonical.join_glyphs {rs : List Run} (h : Canonical rs) :
    join (rs.flatMap glyphs) = rs := by
  induction rs with
  | nil => rfl
  | cons r rs ih =>
    obtain ⟨hText, hFirst, hRest⟩ := (canonical_cons_iff r rs).mp h
    rw [List.flatMap_cons, join_glyphs_append hText (by rwa [ih hRest]), ih hRest]

end Run

/-! ## Building runs in one pass -/

/-- Runs that are being built. -/
structure Builder where
  /-- The runs so far, the last one first. -/
  runs : List Run := []
  /-- The text behind them, which may go on. -/
  text : Text := []
  style : Style := {}

namespace Builder

/-- Make a run of the text, or add it to the last run. -/
def flush (b : Builder) : Builder :=
  if b.text = [] then b
  else
    match b.runs with
    | last :: earlier =>
      if last.style = b.style then
        { b with runs := ⟨last.text ++ b.text, b.style⟩ :: earlier, text := [] }
      else { b with runs := ⟨b.text, b.style⟩ :: last :: earlier, text := [] }
    | [] => { b with runs := [⟨b.text, b.style⟩], text := [] }

/-- Go on in a style. -/
def restyle (b : Builder) (style : Style) : Builder :=
  if style = b.style then b else { b.flush with style := style }

def push (b : Builder) (c : Char) : Builder := { b with text := b.text ++ [c] }

/-- Take in a character of a text that a decoder reads. One that is not visible may have changed the
style. -/
def take (b : Builder) (d : Escape.Decoder) (c : Char) : Builder :=
  if (d.glyph? c).isSome then b.push c else b.restyle (d.step c).graphics.style

/-- Take in a text. -/
def read (b : Builder) (d : Escape.Decoder) : Text → Builder
  | [] => b.flush
  | c :: s => (b.take d c).read (d.step c) s

/-- The runs of a text, built in one pass over it. -/
def build (s : Text) : List Run := (read {} {} s).runs.reverse

/-- The glyphs taken in so far. -/
def glyphs (b : Builder) : List Glyph :=
  b.runs.reverse.flatMap Run.glyphs ++ Run.glyphs ⟨b.text, b.style⟩

theorem flush_text (b : Builder) : b.flush.text = [] := by
  unfold flush
  split
  · next h => exact h
  · split
    · split <;> rfl
    · rfl

theorem flush_glyphs (b : Builder) : b.flush.glyphs = b.glyphs := by
  obtain ⟨runs, text, style⟩ := b
  unfold flush
  split
  · rfl
  · cases runs with
    | nil => simp [glyphs, Run.glyphs]
    | cons last earlier =>
      by_cases hStyle : last.style = style
      · simp [glyphs, Run.glyphs, hStyle]
      · simp [glyphs, Run.glyphs, hStyle]

/-- The text goes into the last run where it has its style, so runs stay canonical. -/
theorem flush_canonical {b : Builder} (h : Run.Canonical b.runs) : Run.Canonical b.flush.runs := by
  obtain ⟨runs, text, style⟩ := b
  unfold flush
  split
  · exact h
  · next hText =>
    cases runs with
    | nil => exact (Run.canonical_cons_iff _ _).mpr ⟨hText, by simp, h⟩
    | cons last earlier =>
      obtain ⟨hLast, hFirst, hRest⟩ := (Run.canonical_cons_iff last earlier).mp h
      by_cases hStyle : last.style = style
      · simp only [hStyle, if_true]
        refine (Run.canonical_cons_iff _ _).mpr ⟨?_, hStyle ▸ hFirst, hRest⟩
        simp [hLast]
      · simp only [hStyle, if_false]
        refine (Run.canonical_cons_iff _ _).mpr ⟨hText, ?_, h⟩
        rintro next hNext
        obtain rfl := Option.some.inj hNext
        exact Ne.symm hStyle

theorem restyle_style (b : Builder) (style : Style) : (b.restyle style).style = style := by
  unfold restyle
  split
  · next h => exact h.symm
  · rfl

theorem restyle_glyphs (b : Builder) (style : Style) : (b.restyle style).glyphs = b.glyphs := by
  unfold restyle
  split
  · rfl
  · rw [← b.flush_glyphs]
    simp [glyphs, Run.glyphs, flush_text]

theorem restyle_canonical {b : Builder} (h : Run.Canonical b.runs) (style : Style) :
    Run.Canonical (b.restyle style).runs := by
  unfold restyle
  split
  · exact h
  · exact flush_canonical h

theorem push_glyphs (b : Builder) (c : Char) : (b.push c).glyphs = b.glyphs ++ [⟨c, b.style⟩] := by
  simp [glyphs, push, Run.glyphs]

/-- A builder that has kept up with a decoder. -/
structure Follows (b : Builder) (d : Escape.Decoder) : Prop where
  style : b.style = d.graphics.style
  canonical : Run.Canonical b.runs

/-- A character taken in adds the glyph that the decoder shows, if it shows one. -/
theorem Follows.take {b : Builder} {d : Escape.Decoder} (h : b.Follows d) (c : Char) :
    (b.take d c).Follows (d.step c) ∧ (b.take d c).glyphs = b.glyphs ++ (d.glyph? c).toList := by
  by_cases hVisible : d.mode = .plain ∧ c ≠ Escape.esc
  · have hGlyph : d.glyph? c = some ⟨c, d.graphics.style⟩ := if_pos hVisible
    have hStep : d.step c = d := by simp [Escape.Decoder.step, hVisible]
    simp only [Builder.take, hGlyph, Option.isSome_some, if_true, hStep]
    refine ⟨⟨h.style, h.canonical⟩, ?_⟩
    rw [push_glyphs, h.style]
    rfl
  · have hGlyph : d.glyph? c = none := if_neg hVisible
    simp only [Builder.take, hGlyph, Option.isSome_none, Bool.false_eq_true, if_false]
    refine ⟨⟨restyle_style _ _, restyle_canonical h.canonical _⟩, ?_⟩
    rw [restyle_glyphs, Option.toList_none, List.append_nil]

/-- A text that is read to its end leaves canonical runs of all its glyphs. -/
theorem Follows.read {b : Builder} {d : Escape.Decoder} (h : b.Follows d) (s : Text) :
    Run.Canonical (b.read d s).runs ∧
      (b.read d s).runs.reverse.flatMap Run.glyphs = b.glyphs ++ d.glyphs s := by
  induction s generalizing b d with
  | nil =>
    refine ⟨flush_canonical h.canonical, ?_⟩
    rw [Escape.Decoder.glyphs_nil, List.append_nil, ← b.flush_glyphs, Builder.read]
    simp [glyphs, Run.glyphs, flush_text]
  | cons c s ih =>
    obtain ⟨hNext, hGlyphs⟩ := h.take c
    obtain ⟨hCanonical, hRead⟩ := ih hNext
    refine ⟨hCanonical, ?_⟩
    rw [Escape.Decoder.glyphs_cons, ← List.append_assoc, ← hGlyphs]
    exact hRead

/-- Holding text back until the style changes makes the same runs as joining all glyphs. -/
theorem build_eq_decode (s : Text) : build s = Escape.decode s := by
  have hNew : Follows {} {} := ⟨rfl, Run.canonical_nil⟩
  obtain ⟨hCanonical, hGlyphs⟩ := hNew.read s
  have hBuilt : (build s).flatMap Run.glyphs = Escape.glyphs s := hGlyphs
  have hRuns : Run.Canonical (build s) := hCanonical.reverse
  rw [Escape.decode, ← hBuilt, hRuns.join_glyphs]

end Builder

/-! ## The runs of any text -/

namespace Escape

theorem char_ne_of_mem_glyphs {d : Decoder} {s : Text} {g : Glyph} (h : g ∈ d.glyphs s) :
    g.char ≠ esc := by
  induction s generalizing d with
  | nil => cases h
  | cons c s ih =>
    rw [Decoder.glyphs_cons, List.mem_append] at h
    obtain hHere | hLater := h
    · by_cases hVisible : d.mode = .plain ∧ c ≠ esc
      · rw [Decoder.glyph?, if_pos hVisible] at hHere
        obtain rfl := List.mem_singleton.mp hHere
        exact hVisible.2
      · rw [Decoder.glyph?, if_neg hVisible] at hHere
        cases hHere
    · exact ih hLater

theorem notMem_plain (s : Text) : esc ∉ plain s := by
  rw [plain_decode]
  intro hEsc
  obtain ⟨g, hg, hChar⟩ := List.mem_map.mp hEsc
  exact char_ne_of_mem_glyphs hg hChar

theorem chars_glyphs_sublist (d : Decoder) (s : Text) :
    ((d.glyphs s).map Glyph.char).Sublist s := by
  induction s generalizing d with
  | nil => exact List.Sublist.refl []
  | cons c s ih =>
    rw [Decoder.glyphs_cons, List.map_append]
    by_cases hVisible : d.mode = .plain ∧ c ≠ esc
    · rw [Decoder.glyph?, if_pos hVisible]
      exact (ih (d.step c)).cons_cons c
    · rw [Decoder.glyph?, if_neg hVisible]
      exact (ih (d.step c)).cons c

/-- A text without escape sequences is its own glyphs, in the plain style. -/
theorem glyphs_of_notMem {s : Text} (h : esc ∉ s) : glyphs s = Run.glyphs ⟨s, {}⟩ :=
  (Decoder.read_visible {} h).1

theorem decode_of_notMem {s : Text} (hSome : s ≠ []) (h : esc ∉ s) : decode s = [⟨s, {}⟩] := by
  have hCanonical : Run.Canonical [⟨s, {}⟩] :=
    (Run.canonical_cons_iff _ _).mpr ⟨hSome, by simp, Run.canonical_nil⟩
  have hGlyphs : glyphs s = [⟨s, {}⟩].flatMap Run.glyphs := by
    rw [glyphs_of_notMem h, List.flatMap_singleton]
  rw [decode, hGlyphs, hCanonical.join_glyphs]

theorem plain_of_notMem {s : Text} (h : esc ∉ s) : plain s = s := by
  rw [plain_decode, glyphs_of_notMem h]
  simp [Run.glyphs, Function.comp_def]

/-- **The runs of any text are canonical**, well-formed or not, and they are what a single pass over
the text builds. They hold no escape character; their characters stand in the text in this order; a
text without escape sequences is a single run in the plain style; and once the escape sequences have
been taken out of a text, there are none left. -/
theorem decode_canonical (s : Text) :
    Run.Canonical (decode s) ∧ Builder.build s = decode s ∧
      (∀ r ∈ decode s, esc ∉ r.text) ∧ (plain s).Sublist s ∧
      (s ≠ [] → esc ∉ s → decode s = [⟨s, {}⟩]) ∧ plain (plain s) = plain s := by
  refine ⟨Run.join_canonical _, Builder.build_eq_decode s, ?_, ?_, decode_of_notMem, ?_⟩
  · intro r hr hEsc
    exact notMem_plain s (List.mem_flatMap.mpr ⟨r, hr, hEsc⟩)
  · rw [plain_decode]
    exact chars_glyphs_sublist {} s
  · exact plain_of_notMem (notMem_plain s)

/-- A colour that is taken back before anything is written in it, and a sequence that breaks off. -/
example : decode ['a', esc, '[', '3', '1', 'm', esc, '[', '3', '9', 'm', 'b', esc, '[', '1'] =
    [⟨['a', 'b'], {}⟩] := by
  cbv

end Escape

end BuildLog
