import BuildLog.Proofs.Json.Grammar

/-!
# Cutting JSON texts into tokens

A text that writes a value is cut into the tokens of that value, whatever follows, as long as it
could not be a part of a numeral: `Writes.scan`.

* `Digits.Ends`: a numeral may end here, and an exponent may follow.
* `Numeral.Writes.scan`, `Quoted.scan`: the tokens that consist of more than fixed characters.
-/

namespace BuildLog.Json

/-- Whether no numeral goes on with a text. -/
def Apart (rest : Text) : Prop :=
  ∀ c ∈ rest.head?, Digits.digit? c = none ∧ c ≠ '.' ∧ c ≠ 'e' ∧ c ≠ 'E'

theorem Apart.nil : Apart [] := by simp [Apart]

theorem Apart.blank {gap rest : Text} (hGap : Blank gap) (h : Apart rest) :
    Apart (gap ++ rest) := by
  cases gap with
  | nil => exact h
  | cons c gap =>
    have hApart : Digits.digit? c = none ∧ c ≠ '.' ∧ c ≠ 'e' ∧ c ≠ 'E' := by
      rcases hGap.cases.1 with rfl | rfl | rfl | rfl <;> decide
    simpa [Apart] using hApart

/-! ## Steps -/

namespace Scan

/-- A step puts its tokens in front of those of the rest. -/
theorem scan_of_step {s next : Scan} {c : Char} {ts : List Token}
    (h : s.step c = some (ts, next)) (rest : Text) :
    s.scan (c :: rest) = (next.scan rest).map (ts ++ ·) := by
  rw [scan_cons, h]
  rfl

theorem scan_of_silent {s next : Scan} {c : Char} (h : s.step c = some ([], next)) (rest : Text) :
    s.scan (c :: rest) = next.scan rest := by
  rw [scan_of_step h]
  simp

theorem scan_number {d d' : Digits} {c : Char} (h : d.step c = some d') (rest : Text) :
    (number d).scan (c :: rest) = (number d').scan rest := by
  refine scan_of_silent ?_ rest
  simp only [step, h]

theorem scan_blank {gap : Text} (h : Blank gap) (rest : Text) :
    between.scan (gap ++ rest) = between.scan rest := by
  induction gap with
  | nil => rfl
  | cons c gap ih =>
    have hStep : between.step c = some ([], between) := by
      rcases h.cases.1 with rfl | rfl | rfl | rfl <;> decide
    rw [List.cons_append, scan_of_silent hStep]
    exact ih h.cases.2

theorem scan_word {left : Text} (h : left ≠ []) (token : Token) (rest : Text) :
    (word left token).scan (left ++ rest) = (between.scan rest).map (token :: ·) := by
  induction left with
  | nil => exact absurd rfl h
  | cons a left ih =>
    cases left with
    | nil =>
      have hStep : (word [a] token).step a = some ([token], between) := if_pos rfl
      exact scan_of_step hStep rest
    | cons b left =>
      have hStep : (word (a :: b :: left) token).step a = some ([], word (b :: left) token) :=
        if_pos rfl
      rw [List.cons_append, scan_of_silent hStep]
      exact ih (by simp)

end Scan

/-! ## Numerals -/

open Scan

namespace Digits

theorem digit?_digitChar {d : Nat} (h : d < 10) : digit? (Nat.digitChar d) = some d := by
  have hAll : ∀ d < 10, digit? (Nat.digitChar d) = some d := by decide
  exact hAll d h

/-- A mantissa may end here, and an exponent may follow. -/
structure Ends (d : Digits) (m : Numeral) : Prop where
  numeral : d.numeral? = some m
  mark : ∀ c, c = 'e' ∨ c = 'E' → d.step c = some (.mark m)
  stop : ∀ c, digit? c = none → c ≠ '.' → c ≠ 'e' → c ≠ 'E' → d.step c = none

/-- A numeral ends at the first character that does not continue it. -/
theorem scan_end {d : Digits} {n : Numeral} {rest : Text} (hNumeral : d.numeral? = some n)
    (hRest : ∀ c ∈ rest.head?, d.step c = none) :
    (number d).scan rest = (between.scan rest).map (.number n :: ·) := by
  cases rest with
  | nil => simp [scan, finish, hNumeral]
  | cons c rest =>
    have hStop : d.step c = none := hRest c (by simp)
    rw [scan_cons, scan_cons]
    simp only [Scan.step, hStop, hNumeral]
    cases start? c with
    | none => rfl
    | some next => simp [Function.comp_def]

/-- States that take in digits one by one, and hold those read so far. -/
def Collects (g : List Nat → Digits) : Prop :=
  ∀ acc d, d < 10 → (g acc).step (Nat.digitChar d) = some (g (d :: acc))

/-- A state that asks for the first digit of such a row. -/
def Opens (start : Digits) (g : List Nat → Digits) : Prop :=
  ∀ d < 10, start.step (Nat.digitChar d) = some (g [d])

theorem step_whole (negative : Bool) (ds : List Nat) (c : Char) :
    (whole negative ds).step c =
      match digit? c with
      | some n => some (whole negative (n :: ds))
      | none => afterWhole negative ds c := rfl

theorem step_fraction (negative : Bool) (before ds : List Nat) (c : Char) :
    (fraction negative before ds).step c =
      match digit? c with
      | some n => some (fraction negative before (n :: ds))
      | none =>
        if c = 'e' ∨ c = 'E' then
          some (mark {
            negative := negative, whole := before.reverse, fraction := some ds.reverse })
        else none := rfl

theorem step_mark (m : Numeral) (c : Char) :
    (mark m).step c =
      match digit? c with
      | some n => some (exponent m false [n])
      | none =>
        if c = '+' then some (sign m false) else if c = '-' then some (sign m true) else none := rfl

theorem collects_whole (negative : Bool) : Collects (whole negative) := fun acc d hd => by
  rw [step_whole, digit?_digitChar hd]

theorem collects_fraction (negative : Bool) (ds : List Nat) :
    Collects (fraction negative ds) := fun acc d hd => by
  rw [step_fraction, digit?_digitChar hd]

theorem collects_exponent (m : Numeral) (negative : Bool) :
    Collects (exponent m negative) := fun acc _ hd =>
  congrArg (Option.map fun n => exponent m negative (n :: acc)) (digit?_digitChar hd)

theorem opens_point (negative : Bool) (ds : List Nat) :
    Opens (point negative ds) (fraction negative ds) := fun _ hd =>
  congrArg (Option.map fun n => fraction negative ds [n]) (digit?_digitChar hd)

theorem opens_mark (m : Numeral) : Opens (mark m) (exponent m false) := fun d hd => by
  rw [step_mark, digit?_digitChar hd]

theorem opens_sign (m : Numeral) (negative : Bool) :
    Opens (sign m negative) (exponent m negative) := fun _ hd =>
  congrArg (Option.map fun n => exponent m negative [n]) (digit?_digitChar hd)

section Rows

variable {g : List Nat → Digits} {ds : List Nat}

/-- A row of digits is taken in as a whole. -/
theorem Collects.scan (hg : Collects g) (hds : ∀ d ∈ ds, d < 10) (acc : List Nat) (rest : Text) :
    (number (g acc)).scan (digitsText ds ++ rest) = (number (g (ds.reverse ++ acc))).scan rest := by
  induction ds generalizing acc with
  | nil => rfl
  | cons d ds ih =>
    calc (number (g acc)).scan (digitsText (d :: ds) ++ rest)
        = (number (g (d :: acc))).scan (digitsText ds ++ rest) :=
          scan_number (hg acc d (hds d List.mem_cons_self)) _
      _ = (number (g (ds.reverse ++ d :: acc))).scan rest :=
          ih (fun d hd => hds d (List.mem_cons_of_mem _ hd)) _
      _ = _ := by simp

theorem Opens.scan {start : Digits} (hStart : Opens start g) (hg : Collects g) (hds : IsDigits ds)
    (rest : Text) :
    (number start).scan (digitsText ds ++ rest) = (number (g ds.reverse)).scan rest := by
  obtain ⟨hne, hds⟩ := hds
  cases ds with
  | nil => exact absurd rfl hne
  | cons d ds =>
    calc (number start).scan (digitsText (d :: ds) ++ rest)
        = (number (g [d])).scan (digitsText ds ++ rest) :=
          scan_number (hStart d (hds d List.mem_cons_self)) _
      _ = (number (g (ds.reverse ++ [d]))).scan rest :=
          hg.scan (fun d hd => hds d (List.mem_cons_of_mem _ hd)) _ _
      _ = _ := by simp

end Rows

theorem afterWhole_mark {negative : Bool} {ds : List Nat} {c : Char} (h : c = 'e' ∨ c = 'E') :
    afterWhole negative ds c = some (mark { negative := negative, whole := ds.reverse }) := by
  rcases h with rfl | rfl <;> rfl

theorem afterWhole_stop {negative : Bool} {ds : List Nat} {c : Char} (hPoint : c ≠ '.')
    (he : c ≠ 'e') (hE : c ≠ 'E') : afterWhole negative ds c = none := by
  rw [afterWhole, if_neg hPoint, if_neg (not_or.mpr ⟨he, hE⟩)]

theorem digit?_mark {c : Char} (h : c = 'e' ∨ c = 'E') : digit? c = none := by
  rcases h with rfl | rfl <;> rfl

theorem ends_zero (negative : Bool) : (zero negative).Ends ⟨negative, [0], none, none⟩ where
  numeral := rfl
  mark _ hc := afterWhole_mark hc
  stop _ _ hPoint he hE := afterWhole_stop hPoint he hE

theorem ends_whole (negative : Bool) (ds : List Nat) :
    (whole negative ds.reverse).Ends ⟨negative, ds, none, none⟩ where
  numeral := by rw [numeral?, List.reverse_reverse]
  mark c hc := by rw [step_whole, digit?_mark hc, afterWhole_mark hc, List.reverse_reverse]
  stop c hDigit hPoint he hE := by rw [step_whole, hDigit, afterWhole_stop hPoint he hE]

theorem ends_fraction (negative : Bool) (ds fs : List Nat) :
    (fraction negative ds.reverse fs.reverse).Ends ⟨negative, ds, some fs, none⟩ where
  numeral := by rw [numeral?, List.reverse_reverse, List.reverse_reverse]
  mark c hc := by
    rw [step_fraction, digit?_mark hc, List.reverse_reverse, List.reverse_reverse]
    exact if_pos hc
  stop c hDigit _ he hE := by
    rw [step_fraction, hDigit]
    exact if_neg (not_or.mpr ⟨he, hE⟩)

theorem scan_exponent {d : Digits} {m : Numeral} (h : d.Ends m) {exponent : Option Exponent}
    (hm : m.exponent = none) {e rest : Text} (he : Numeral.WritesExponent exponent e)
    (hRest : Apart rest) :
    (number d).scan (e ++ rest) =
      (between.scan rest).map (.number { m with exponent := exponent } :: ·) := by
  cases he with
  | none =>
    have hSame : { m with exponent := none } = m := by cases m; cases hm; rfl
    rw [List.nil_append, hSame]
    exact scan_end h.numeral fun c hc =>
      have ⟨hDigit, hPoint, he, hE⟩ := hRest c hc
      h.stop c hDigit hPoint he hE
  | @some c negative sign ds hc hSign hds =>
    have hEnd : (number (exponent m negative ds.reverse)).scan rest =
        (between.scan rest).map (.number { m with exponent := some ⟨negative, ds⟩ } :: ·) := by
      refine scan_end (by rw [numeral?, List.reverse_reverse]) fun c hc => ?_
      exact congrArg (Option.map _) (hRest c hc).1
    have hDigits := collects_exponent m negative
    rw [List.cons_append, scan_number (h.mark c hc), List.append_assoc]
    cases hSign with
    | none => rw [List.nil_append, (opens_mark m).scan hDigits hds, hEnd]
    | plus =>
      have hStep : (mark m).step '+' = some (sign m false) := rfl
      rw [List.singleton_append, scan_number hStep, (opens_sign m false).scan hDigits hds, hEnd]
    | minus =>
      have hStep : (mark m).step '-' = some (sign m true) := rfl
      rw [List.singleton_append, scan_number hStep, (opens_sign m true).scan hDigits hds, hEnd]

theorem scan_fraction {d : Digits} {negative : Bool} {whole : List Nat}
    (h : d.Ends ⟨negative, whole, none, none⟩)
    (hPoint : d.step '.' = some (point negative whole.reverse)) {f : Option (List Nat)} {s : Text}
    (hf : Numeral.WritesFraction f s) :
    ∃ d' : Digits, d'.Ends ⟨negative, whole, f, none⟩ ∧
      ∀ rest, (number d).scan (s ++ rest) = (number d').scan rest := by
  cases hf with
  | none => exact ⟨d, h, fun _ => rfl⟩
  | @some fs hfs =>
    refine ⟨fraction negative whole.reverse fs.reverse, ends_fraction .., fun rest => ?_⟩
    rw [List.cons_append, scan_number hPoint,
      (opens_point negative whole.reverse).scan (collects_fraction negative _) hfs]

/-- The state behind a sign and one digit. -/
def first (negative : Bool) (d : Nat) : Digits :=
  if d = 0 then zero negative else whole negative [d]

theorem scan_first (negative : Bool) {d : Nat} (hd : d < 10) (rest : Text) :
    between.scan ((if negative then ['-'] else []) ++ Nat.digitChar d :: rest) =
      (number (first negative d)).scan rest := by
  cases negative with
  | false =>
    have hAll : ∀ d < 10, between.step (Nat.digitChar d) = some ([], number (first false d)) := by
      decide
    exact scan_of_silent (hAll d hd) rest
  | true =>
    have hAll : ∀ d < 10, (number .minus).step (Nat.digitChar d) =
        some ([], number (first true d)) := by decide
    have hMinus : between.step '-' = some ([], number .minus) := by decide
    rw [if_pos rfl, List.singleton_append, scan_of_silent hMinus, scan_of_silent (hAll d hd)]

/-- A whole part is read up to where the numeral may end. -/
theorem scan_whole (negative : Bool) {ds : List Nat} (hds : IsDigits ds)
    (hZero : ds.head? = some 0 → ds = [0]) :
    ∃ d : Digits, d.Ends ⟨negative, ds, none, none⟩ ∧
      d.step '.' = some (point negative ds.reverse) ∧
      ∀ rest, between.scan ((if negative then ['-'] else []) ++ (digitsText ds ++ rest)) =
        (number d).scan rest := by
  obtain ⟨hne, hds⟩ := hds
  cases ds with
  | nil => exact absurd rfl hne
  | cons d ds =>
    have hFirst := fun rest => scan_first negative (hds d (by simp)) (digitsText ds ++ rest)
    by_cases hd : d = 0
    · subst hd
      obtain rfl : ds = [] := by simpa using hZero rfl
      exact ⟨zero negative, ends_zero negative, rfl, hFirst⟩
    · refine ⟨whole negative (d :: ds).reverse, ends_whole .., ?_, fun rest => ?_⟩
      · rfl
      refine (hFirst rest).trans ?_
      rw [first, if_neg hd, (collects_whole negative).scan (fun d hd => hds d (by simp [hd]))]
      simp

end Digits

/-- A numeral is one token if nothing behind it continues it. -/
theorem Numeral.Writes.scan {n : Numeral} {s : Text} (h : n.Writes s) {rest : Text}
    (hRest : Apart rest) :
    between.scan (s ++ rest) = (between.scan rest).map (.number n :: ·) := by
  cases h with
  | @intro negative whole fraction exponent f e hWhole hZero hFraction hExponent =>
    obtain ⟨d, hEnds, hPoint, hScan⟩ := Digits.scan_whole negative hWhole hZero
    obtain ⟨d', hEnds', hScan'⟩ := Digits.scan_fraction hEnds hPoint hFraction
    calc between.scan (((if negative then ['-'] else []) ++ (digitsText whole ++ (f ++ e))) ++ rest)
        = (number d).scan (f ++ (e ++ rest)) := by simpa using hScan (f ++ (e ++ rest))
      _ = (number d').scan (e ++ rest) := hScan' _
      _ = _ := Digits.scan_exponent hEnds' rfl hExponent hRest

/-! ## Strings -/

namespace Piece

theorem hexDigit?_of_writesHex {d : Nat} {c : Char} (h : WritesHex d c) :
    Text.Number.hexDigit? c = some d := by
  have hAll : ∀ d < 16, Text.Number.hexDigit? (Nat.digitChar d) = some d ∧
      Text.Number.hexDigit? (Nat.digitChar d).toUpper = some d := by decide
  obtain ⟨hd, rfl | rfl⟩ := h
  · exact (hAll d hd).1
  · exact (hAll d hd).2

theorem step_unicode (acc : List Piece) (left value : Nat) (c : Char) :
    (unicode acc left value).step c =
      match Text.Number.hexDigit? c with
      | none => none
      | some d =>
        if left ≤ 1 then some ([], string (.unit (16 * value + d) :: acc))
        else some ([], unicode acc (left - 1) (16 * value + d)) := rfl

theorem step_string (acc : List Piece) (c : Char) :
    (string acc).step c =
      if c = '"' then some ([.string (text? acc.reverse)], between)
      else if c = '\\' then some ([], escape acc)
      else if c.toNat < 0x20 then none
      else some ([], string (.char c :: acc)) := rfl

theorem step_escape (acc : List Piece) (c : Char) :
    (escape acc).step c =
      if c = 'u' then some ([], unicode acc 4 0)
      else (escaped? c).map fun e => ([], string (.char e :: acc)) := rfl

theorem scan_hex {d : Nat} {c : Char} (h : WritesHex d c) (acc : List Piece) (left value : Nat)
    (rest : Text) :
    (unicode acc (left + 2) value).scan (c :: rest) =
      (unicode acc (left + 1) (16 * value + d)).scan rest := by
  refine scan_of_silent ?_ rest
  rw [step_unicode, hexDigit?_of_writesHex h]
  exact if_neg (by omega)

theorem scan_lastHex {d : Nat} {c : Char} (h : WritesHex d c) (acc : List Piece) (value : Nat)
    (rest : Text) :
    (unicode acc 1 value).scan (c :: rest) =
      (string (.unit (16 * value + d) :: acc)).scan rest := by
  refine scan_of_silent ?_ rest
  rw [step_unicode, hexDigit?_of_writesHex h]
  exact if_pos (Nat.le_refl 1)

/-- A piece of a string is read in whatever way it is written. -/
theorem Writes.scan {p : Piece} {s : Text} (h : p.Writes s) (acc : List Piece) (rest : Text) :
    (string acc).scan (s ++ rest) = (string (p :: acc)).scan rest := by
  have hEscape : (string acc).step '\\' = some ([], escape acc) := rfl
  cases h with
  | @plain c hControl hQuote hPlain =>
    have hStep : (string acc).step c = some ([], string (.char c :: acc)) := by
      rw [step_string, if_neg hQuote, if_neg hPlain, if_neg (Nat.not_lt.2 hControl)]
    exact scan_of_silent hStep rest
  | @short e c h =>
    have hAll : ∀ x ∈ shortEscapes, x.1 ≠ 'u' ∧ escaped? x.1 = some x.2 := by decide
    have hStep : (escape acc).step e = some ([], string (.char c :: acc)) := by
      rw [step_escape, if_neg (hAll _ h).1, (hAll _ h).2]
      rfl
    rw [List.cons_append, scan_of_silent hEscape, List.cons_append, scan_of_silent hStep]
    rfl
  | @unicode d₁ d₂ d₃ d₄ c₁ c₂ c₃ c₄ h₁ h₂ h₃ h₄ =>
    have hOpen : (escape acc).step 'u' = some ([], Scan.unicode acc 4 0) := rfl
    have hValue : 16 * (16 * (16 * (16 * 0 + d₁) + d₂) + d₃) + d₄ =
        0x1000 * d₁ + 0x100 * d₂ + 0x10 * d₃ + d₄ := by omega
    calc (string acc).scan ('\\' :: 'u' :: c₁ :: c₂ :: c₃ :: c₄ :: rest)
        = (Scan.unicode acc 4 0).scan (c₁ :: c₂ :: c₃ :: c₄ :: rest) := by
          rw [scan_of_silent hEscape, scan_of_silent hOpen]
      _ = _ := by rw [scan_hex h₁, scan_hex h₂, scan_hex h₃, scan_lastHex h₄, hValue]

theorem WritesAll.scan {ps : List Piece} {s : Text} (h : WritesAll ps s) (acc : List Piece)
    (rest : Text) : (string acc).scan (s ++ rest) = (string (ps.reverse ++ acc)).scan rest := by
  induction h generalizing acc with
  | nil => rfl
  | cons h _ ih => simp [h.scan, ih]

end Piece

theorem Quoted.scan {value : Option Text} {s : Text} (h : Quoted value s) (rest : Text) :
    between.scan (s ++ rest) = (between.scan rest).map (.string value :: ·) := by
  cases h with
  | @intro ps s _ hAll hValue =>
    have hText : Piece.text? ps = value := by
      refine Option.ext fun t => ?_
      rw [hValue, Piece.text?_eq_some_iff hAll.fits]
    have hOpen : between.step '"' = some ([], string []) := by decide
    have hClose : (string ps.reverse).step '"' = some ([.string value], between) := by
      rw [Piece.step_string, if_pos rfl, List.reverse_reverse, hText]
    rw [List.cons_append, scan_of_silent hOpen, List.append_assoc, hAll.scan, List.append_nil,
      List.singleton_append, scan_of_step hClose]
    rfl

/-! ## Values -/

mutual

def Value.tokens : Value → List Token
  | .null => [.null]
  | .bool b => [.bool b]
  | .number n => [.number n]
  | .string s => [.string s]
  | .array [] => [.openArray, .closeArray]
  | .array (v :: vs) => .openArray :: (v.tokens ++ itemTokens vs)
  | .object [] => [.openObject, .closeObject]
  | .object ((k, v) :: members) =>
    .openObject :: .string k :: .colon :: (v.tokens ++ memberTokens members)

/-- The tokens behind an item, with the items that follow it. -/
def itemTokens : List Value → List Token
  | [] => [.closeArray]
  | v :: vs => .comma :: (v.tokens ++ itemTokens vs)

/-- The tokens behind a member, with the members that follow it. -/
def memberTokens : List (Option Text × Value) → List Token
  | [] => [.closeObject]
  | (k, v) :: members => .comma :: .string k :: .colon :: (v.tokens ++ memberTokens members)

end

def Form.tokens : Form → List Token
  | .value v => v.tokens
  | .padded v => v.tokens
  | .moreItems vs => itemTokens vs
  | .member k v => .string k :: .colon :: v.tokens
  | .moreMembers members => memberTokens members

/-- What follows an item never continues a numeral. -/
theorem Writes.apart_moreItems {vs : List Value} {s : Text} (h : Writes (.moreItems vs) s)
    (rest : Text) : Apart (s ++ rest) := by
  cases h <;> simp [Apart, Digits.digit?, Text.Number.digit?]

theorem Writes.apart_moreMembers {members : List (Option Text × Value)} {s : Text}
    (h : Writes (.moreMembers members) s) (rest : Text) : Apart (s ++ rest) := by
  cases h <;> simp [Apart, Digits.digit?, Text.Number.digit?]

/-- The induction is on how a part is written. Only a numeral depends on what follows it, so all that
is asked of the rest is to stand apart; what follows a part inside an array or object does. -/
theorem Writes.scan {f : Form} {s : Text} (h : Writes f s) {rest : Text} (hRest : Apart rest) :
    between.scan (s ++ rest) = (between.scan rest).map (f.tokens ++ ·) := by
  have hOpenArray : between.step '[' = some ([.openArray], between) := by decide
  have hCloseArray : between.step ']' = some ([.closeArray], between) := by decide
  have hOpenObject : between.step '\x7b' = some ([.openObject], between) := by decide
  have hCloseObject : between.step '\x7d' = some ([.closeObject], between) := by decide
  have hComma : between.step ',' = some ([.comma], between) := by decide
  have hColon : between.step ':' = some ([.colon], between) := by decide
  induction h generalizing rest with
  | null =>
    have hStep : between.step 'n' = some ([], word "ull".toList .null) := by decide
    exact (scan_of_silent hStep _).trans (scan_word (by decide) .null rest)
  | true =>
    have hStep : between.step 't' = some ([], word "rue".toList (.bool Bool.true)) := by decide
    exact (scan_of_silent hStep _).trans (scan_word (by decide) _ rest)
  | false =>
    have hStep : between.step 'f' = some ([], word "alse".toList (.bool Bool.false)) := by decide
    exact (scan_of_silent hStep _).trans (scan_word (by decide) _ rest)
  | number h => exact h.scan hRest
  | string h => exact h.scan rest
  | emptyArray h =>
    rw [List.cons_append, scan_of_step hOpenArray, List.append_assoc, scan_blank h,
      List.singleton_append, scan_of_step hCloseArray]
    simp [Form.tokens, Value.tokens, Function.comp_def]
  | array _ hs ih ihs =>
    rw [List.cons_append, scan_of_step hOpenArray, List.append_assoc, ih (hs.apart_moreItems rest),
      ihs hRest]
    simp [Form.tokens, Value.tokens, Function.comp_def]
  | emptyObject h =>
    rw [List.cons_append, scan_of_step hOpenObject, List.append_assoc, scan_blank h,
      List.singleton_append, scan_of_step hCloseObject]
    simp [Form.tokens, Value.tokens, Function.comp_def]
  | object _ hs ih ihs =>
    rw [List.cons_append, scan_of_step hOpenObject, List.append_assoc,
      ih (hs.apart_moreMembers rest), ihs hRest]
    simp [Form.tokens, Value.tokens, Function.comp_def]
  | padded hBefore _ hAfter ih =>
    rw [List.append_assoc, scan_blank hBefore, List.append_assoc, ih (hRest.blank hAfter),
      scan_blank hAfter]
    rfl
  | noItem => exact scan_of_step hCloseArray rest
  | item _ hs ih ihs =>
    rw [List.cons_append, scan_of_step hComma, List.append_assoc, ih (hs.apart_moreItems rest),
      ihs hRest]
    simp [Form.tokens, itemTokens, Function.comp_def]
  | member hBefore hKey hAfter _ ih =>
    rw [List.append_assoc, scan_blank hBefore, List.append_assoc, hKey.scan, List.append_assoc,
      scan_blank hAfter, List.cons_append, scan_of_step hColon, ih hRest]
    simp [Form.tokens, Function.comp_def]
  | noMember => exact scan_of_step hCloseObject rest
  | moreMembers _ hs ih ihs =>
    rw [List.cons_append, scan_of_step hComma, List.append_assoc, ih (hs.apart_moreMembers rest),
      ihs hRest]
    simp [Form.tokens, memberTokens, Function.comp_def]

/-- The whole texts of a value have the same tokens. -/
theorem Document.tokens_eq {v : Value} {s : Text} (h : Document v s) : tokens s = some v.tokens := by
  simpa [tokens, Form.tokens, scan_nil, finish] using h.scan .nil

end BuildLog.Json
