import BuildLog.Json.Value

/-!
# The grammar of JSON texts

Which texts write a value, by the rules of the format and without a reader: `Writes`. A value has
many texts, which differ in the blanks around their tokens, in the way that the characters of a
string are escaped, and in the letter and the plus sign of an exponent.

* `Piece.text?_eq_some_iff`: the text that the pieces of a string are read as is the one they spell.
* `Quoted.of_plain`: a text without characters that need an escape may stand between quotes.
-/

namespace BuildLog.Json

/-- Blanks, which may stand around every token. -/
def Blank (gap : Text) : Prop := ∀ c ∈ gap, c ∈ [' ', '\t', '\n', '\r']

theorem Blank.nil : Blank [] := by simp [Blank]

theorem Blank.cases {c : Char} {gap : Text} (h : Blank (c :: gap)) :
    (c = ' ' ∨ c = '\t' ∨ c = '\n' ∨ c = '\r') ∧ Blank gap := by
  simpa [Blank] using h

/-! ## Numerals -/

/-- Digits of which there is at least one. -/
def IsDigits (ds : List Nat) : Prop := ds ≠ [] ∧ ∀ d ∈ ds, d < 10

def digitsText (ds : List Nat) : Text := ds.map Nat.digitChar

namespace Numeral

inductive WritesFraction : Option (List Nat) → Text → Prop
  | none : WritesFraction none []
  | some {ds : List Nat} (h : IsDigits ds) : WritesFraction (some ds) ('.' :: digitsText ds)

/-- A sign; only a plus sign may be left out. -/
inductive WritesSign : Bool → Text → Prop
  | none : WritesSign false []
  | plus : WritesSign false ['+']
  | minus : WritesSign true ['-']

inductive WritesExponent : Option Exponent → Text → Prop
  | none : WritesExponent none []
  | some {e : Char} {negative : Bool} {sign : Text} {ds : List Nat} (he : e = 'e' ∨ e = 'E')
      (hSign : WritesSign negative sign) (h : IsDigits ds) :
      WritesExponent (some ⟨negative, ds⟩) (e :: (sign ++ digitsText ds))

/-- A numeral. Its whole part has no plus sign, and no zero before other digits. -/
inductive Writes : Numeral → Text → Prop
  | intro {negative : Bool} {whole : List Nat} {fraction : Option (List Nat)}
      {exponent : Option Exponent} {f e : Text} (hWhole : IsDigits whole)
      (hZero : whole.head? = some 0 → whole = [0]) (hFraction : WritesFraction fraction f)
      (hExponent : WritesExponent exponent e) :
      Writes ⟨negative, whole, fraction, exponent⟩
        ((if negative then ['-'] else []) ++ (digitsText whole ++ (f ++ e)))

end Numeral

/-! ## Strings -/

namespace Piece

/-- The characters that one letter behind a backslash stands for. -/
def shortEscapes : List (Char × Char) :=
  [('"', '"'), ('\\', '\\'), ('/', '/'), ('b', '\x08'), ('f', '\x0c'), ('n', '\n'), ('r', '\r'),
    ('t', '\t')]

/-- A hexadecimal digit in either letter case. -/
def WritesHex (d : Nat) (c : Char) : Prop :=
  d < 16 ∧ (c = Nat.digitChar d ∨ c = (Nat.digitChar d).toUpper)

inductive Writes : Piece → Text → Prop
  | plain {c : Char} (hControl : 0x20 ≤ c.toNat) (hQuote : c ≠ '"') (hEscape : c ≠ '\\') :
      Writes (.char c) [c]
  | short {e c : Char} (h : (e, c) ∈ shortEscapes) : Writes (.char c) ['\\', e]
  | unicode {d₁ d₂ d₃ d₄ : Nat} {c₁ c₂ c₃ c₄ : Char} (h₁ : WritesHex d₁ c₁) (h₂ : WritesHex d₂ c₂)
      (h₃ : WritesHex d₃ c₃) (h₄ : WritesHex d₄ c₄) :
      Writes (.unit (0x1000 * d₁ + 0x100 * d₂ + 0x10 * d₃ + d₄)) ['\\', 'u', c₁, c₂, c₃, c₄]

inductive WritesAll : List Piece → Text → Prop
  | nil : WritesAll [] []
  | cons {p : Piece} {ps : List Piece} {s t : Text} (h : Writes p s) (hs : WritesAll ps t) :
      WritesAll (p :: ps) (s ++ t)

/-- The text that pieces spell: a character beyond 16 bits takes two units, the first with the upper
and the second with the lower ten bits of what is beyond. -/
inductive Spells : List Piece → Text → Prop
  | nil : Spells [] []
  | char {c : Char} {ps : List Piece} {s : Text} (h : Spells ps s) : Spells (.char c :: ps) (c :: s)
  | unit {c : Char} {ps : List Piece} {s : Text} (hc : c.toNat < 0x10000) (h : Spells ps s) :
      Spells (.unit c.toNat :: ps) (c :: s)
  | pair {c : Char} {ps : List Piece} {s : Text} (hc : 0x10000 ≤ c.toNat) (h : Spells ps s) :
      Spells (.unit (0xD800 + (c.toNat - 0x10000) / 0x400) ::
        .unit (0xDC00 + (c.toNat - 0x10000) % 0x400) :: ps) (c :: s)

/-- Whether a piece is a character or a unit of 16 bits. -/
def Fits : Piece → Prop
  | char _ => True
  | unit value => value < 0x10000

theorem Writes.fits {p : Piece} {s : Text} (h : Writes p s) : p.Fits := by
  cases h with
  | plain => trivial
  | short => trivial
  | unicode h₁ h₂ h₃ h₄ =>
    have := h₁.1
    have := h₂.1
    have := h₃.1
    have := h₄.1
    simp only [Fits]
    omega

theorem WritesAll.fits {ps : List Piece} {s : Text} (h : WritesAll ps s) : ∀ p ∈ ps, p.Fits := by
  induction h with
  | nil => simp
  | cons h _ ih => simpa using ⟨h.fits, ih⟩

theorem toNat_ofNat {n : Nat} (h : n.isValidChar) : (Char.ofNat n).toNat = n := by
  rw [Char.ofNat, dif_pos h]
  rfl

theorem toNat_valid (c : Char) : c.toNat.isValidChar := c.valid

theorem isHigh_iff {n : Nat} : isHigh n ↔ 0xD800 ≤ n ∧ n ≤ 0xDBFF := by simp [isHigh]

theorem isLow_iff {n : Nat} : isLow n ↔ 0xDC00 ≤ n ∧ n ≤ 0xDFFF := by simp [isLow]

theorem isValidChar_of_unit {value : Nat} (h : value < 0x10000) (hHigh : ¬ isHigh value)
    (hLow : ¬ isLow value) : value.isValidChar := by
  rw [isHigh_iff] at hHigh
  rw [isLow_iff] at hLow
  simp only [Nat.isValidChar]
  omega

theorem toNat_combine {high low : Nat} (hHigh : isHigh high) (hLow : isLow low) :
    (combine high low).toNat = 0x10000 + (high - 0xD800) * 0x400 + (low - 0xDC00) := by
  rw [isHigh_iff] at hHigh
  rw [isLow_iff] at hLow
  refine toNat_ofNat ?_
  simp only [Nat.isValidChar]
  omega

theorem Spells.of_unit {value : Nat} {ps : List Piece} {s : Text} (h : value < 0x10000)
    (hHigh : ¬ isHigh value) (hLow : ¬ isLow value) (hs : Spells ps s) :
    Spells (.unit value :: ps) (Char.ofNat value :: s) := by
  have hValue : (Char.ofNat value).toNat = value := toNat_ofNat (isValidChar_of_unit h hHigh hLow)
  simpa [hValue] using Spells.unit (c := Char.ofNat value) (by rwa [hValue]) hs

theorem Spells.of_pair {high low : Nat} {ps : List Piece} {s : Text} (hHigh : isHigh high)
    (hLow : isLow low) (hs : Spells ps s) :
    Spells (.unit high :: .unit low :: ps) (combine high low :: s) := by
  have hValue := toNat_combine hHigh hLow
  rw [isHigh_iff] at hHigh
  rw [isLow_iff] at hLow
  have hUpper : 0xD800 + ((combine high low).toNat - 0x10000) / 0x400 = high := by omega
  have hLower : 0xDC00 + ((combine high low).toNat - 0x10000) % 0x400 = low := by omega
  simpa [hUpper, hLower] using Spells.pair (c := combine high low) (by omega) hs

/-- A text that is read from pieces is the one that they spell. -/
theorem Spells.of_text? {ps : List Piece} {s : Text} (hFits : ∀ p ∈ ps, p.Fits)
    (h : text? ps = some s) : Spells ps s := by
  fun_induction text? ps generalizing s with
  | case1 =>
    cases h
    exact .nil
  | case2 c ps ih =>
    obtain ⟨t, ht, rfl⟩ := Option.map_eq_some_iff.1 h
    exact .char (ih (fun p hp => hFits p (by simp [hp])) ht)
  | case3 high low ps hHigh hLow ih =>
    obtain ⟨t, ht, rfl⟩ := Option.map_eq_some_iff.1 h
    exact .of_pair hHigh hLow (ih (fun p hp => hFits p (by simp [hp])) ht)
  | case4 => cases h
  | case5 => cases h
  | case6 value low ps hHigh hLow ih =>
    obtain ⟨t, ht, rfl⟩ := Option.map_eq_some_iff.1 h
    exact .of_unit (hFits (.unit value) (by simp)) hHigh hLow
      (ih (fun p hp => hFits p (List.mem_cons_of_mem _ hp)) ht)
  | case7 => cases h
  | case8 value ps _ hSurrogate ih =>
    obtain ⟨t, ht, rfl⟩ := Option.map_eq_some_iff.1 h
    simp only [Bool.or_eq_true, not_or] at hSurrogate
    exact .of_unit (hFits (.unit value) (by simp)) hSurrogate.1 hSurrogate.2
      (ih (fun p hp => hFits p (by simp [hp])) ht)

theorem text?_unit {value : Nat} (hHigh : ¬ isHigh value) (hLow : ¬ isLow value)
    (ps : List Piece) :
    text? (.unit value :: ps) = (text? ps).map (Char.ofNat value :: ·) := by
  cases ps with
  | nil => simp [text?, hHigh, hLow]
  | cons p ps => cases p <;> simp [text?, hHigh, hLow]

/-- The text that pieces spell is the one that is read from them. -/
theorem Spells.text?_eq {ps : List Piece} {s : Text} (h : Spells ps s) : text? ps = some s := by
  induction h with
  | nil => rfl
  | char _ ih => simp [text?, ih]
  | @unit c ps s hc _ ih =>
    -- No character has the number of half a pair.
    have hHigh : ¬ isHigh c.toNat := by
      rw [isHigh_iff]
      rcases toNat_valid c with h | h <;> omega
    have hLow : ¬ isLow c.toNat := by
      rw [isLow_iff]
      rcases toNat_valid c with h | h <;> omega
    rw [text?_unit hHigh hLow, ih]
    simp
  | @pair c ps s hc _ ih =>
    have hRange : c.toNat < 0x110000 := by rcases toNat_valid c with h | h <;> omega
    have hHigh : isHigh (0xD800 + (c.toNat - 0x10000) / 0x400) := isHigh_iff.2 (by omega)
    have hLow : isLow (0xDC00 + (c.toNat - 0x10000) % 0x400) := isLow_iff.2 (by omega)
    have hCombine : combine (0xD800 + (c.toNat - 0x10000) / 0x400)
        (0xDC00 + (c.toNat - 0x10000) % 0x400) = c := by
      apply Char.toNat_inj.1
      rw [toNat_combine hHigh hLow]
      omega
    simp [text?, hHigh, hLow, hCombine, ih]

/-- Whether a text may stand between quotes without an escape. -/
def isPlain (s : Text) : Bool := s.all fun c => 0x20 ≤ c.toNat && c != '"' && c != '\\'

theorem WritesAll.of_plain {s : Text} (h : isPlain s) : WritesAll (s.map .char) s := by
  induction s with
  | nil => exact .nil
  | cons c s ih =>
    simp only [isPlain, List.all_cons, Bool.and_eq_true, decide_eq_true_eq, bne_iff_ne] at h
    obtain ⟨⟨⟨hControl, hQuote⟩, hEscape⟩, hs⟩ := h
    exact .cons (.plain hControl hQuote hEscape) (ih hs)

theorem Spells.map_char (s : Text) : Spells (s.map .char) s := by
  induction s with
  | nil => exact .nil
  | cons c s ih => exact .char ih

/-- The reader of strings tells the text that the pieces spell, and none if they spell none. -/
theorem text?_eq_some_iff {ps : List Piece} (hFits : ∀ p ∈ ps, p.Fits) {s : Text} :
    text? ps = some s ↔ Spells ps s := ⟨.of_text? hFits, Spells.text?_eq⟩

end Piece

/-- A string between its quotes, with the text that it spells, if it spells one. -/
inductive Quoted : Option Text → Text → Prop
  | intro {ps : List Piece} {s : Text} {value : Option Text} (h : Piece.WritesAll ps s)
      (hValue : ∀ t, value = some t ↔ Piece.Spells ps t) : Quoted value ('"' :: (s ++ ['"']))

theorem Quoted.of_plain {s : Text} (h : Piece.isPlain s) :
    Quoted (some s) ('"' :: (s ++ ['"'])) := by
  have hAll := Piece.WritesAll.of_plain h
  refine .intro hAll fun t => ?_
  rw [← Piece.text?_eq_some_iff hAll.fits, (Piece.Spells.map_char s).text?_eq]

/-! ## Values -/

/-- What a part of a text writes. -/
inductive Form where
  | value (v : Value)
  /-- A value with blanks around it. -/
  | padded (v : Value)
  /-- The items behind the first one, up to the end of the array. -/
  | moreItems (vs : List Value)
  | member (key : Option Text) (v : Value)
  /-- The members behind the first one, up to the end of the object. -/
  | moreMembers (members : List (Option Text × Value))

inductive Writes : Form → Text → Prop
  | null : Writes (.value .null) "null".toList
  | true : Writes (.value (.bool true)) "true".toList
  | false : Writes (.value (.bool false)) "false".toList
  | number {n : Numeral} {s : Text} (h : n.Writes s) : Writes (.value (.number n)) s
  | string {value : Option Text} {s : Text} (h : Quoted value s) :
      Writes (.value (.string value)) s
  | emptyArray {gap : Text} (h : Blank gap) : Writes (.value (.array [])) ('[' :: (gap ++ [']']))
  | array {v : Value} {vs : List Value} {s t : Text} (h : Writes (.padded v) s)
      (hs : Writes (.moreItems vs) t) : Writes (.value (.array (v :: vs))) ('[' :: (s ++ t))
  | emptyObject {gap : Text} (h : Blank gap) :
      Writes (.value (.object [])) ('\x7b' :: (gap ++ ['\x7d']))
  | object {key : Option Text} {v : Value} {members : List (Option Text × Value)} {s t : Text}
      (h : Writes (.member key v) s) (hs : Writes (.moreMembers members) t) :
      Writes (.value (.object ((key, v) :: members))) ('\x7b' :: (s ++ t))
  | padded {before after : Text} {v : Value} {s : Text} (hBefore : Blank before)
      (h : Writes (.value v) s) (hAfter : Blank after) : Writes (.padded v) (before ++ (s ++ after))
  | noItem : Writes (.moreItems []) [']']
  | item {v : Value} {vs : List Value} {s t : Text} (h : Writes (.padded v) s)
      (hs : Writes (.moreItems vs) t) : Writes (.moreItems (v :: vs)) (',' :: (s ++ t))
  | member {before after : Text} {key : Option Text} {v : Value} {k s : Text}
      (hBefore : Blank before) (hKey : Quoted key k) (hAfter : Blank after)
      (h : Writes (.padded v) s) :
      Writes (.member key v) (before ++ (k ++ (after ++ ':' :: s)))
  | noMember : Writes (.moreMembers []) ['\x7d']
  | moreMembers {key : Option Text} {v : Value} {members : List (Option Text × Value)} {s t : Text}
      (h : Writes (.member key v) s) (hs : Writes (.moreMembers members) t) :
      Writes (.moreMembers ((key, v) :: members)) (',' :: (s ++ t))

/-- The whole texts that write a value. -/
def Document (v : Value) (s : Text) : Prop := Writes (.padded v) s

theorem Writes.padded_of_value {v : Value} {s : Text} (h : Writes (.value v) s) :
    Writes (.padded v) s := by simpa using Writes.padded .nil h .nil

/-- The name of a member may stand between quotes as it is, if it is plain. -/
theorem Writes.member_plain {name s : Text} {v : Value} (hName : Piece.isPlain name)
    (h : Writes (.value v) s) :
    Writes (.member (some name) v) ('"' :: (name ++ '"' :: ':' :: s)) := by
  simpa using Writes.member .nil (.of_plain hName) .nil h.padded_of_value

end BuildLog.Json
