import BuildLog.Text
import BuildLog.Text.Number

/-!
# Percent encoding

An address writes bytes that it may not hold as a percent sign and two hexadecimal digits.

* `decodeBytes_of_notMem`: bytes without a percent sign stand for themselves.
-/

namespace BuildLog.Percent

/-- The bytes of a text. -/
def bytes (s : Text) : List UInt8 := (String.ofList s).toUTF8.data.toList

/-- The percent sign. -/
def sign : UInt8 := 0x25

/-- The value of a hexadecimal digit. -/
def hexDigit? (b : UInt8) : Option UInt8 :=
  (Text.Number.hexDigit? (Char.ofNat b.toNat)).map UInt8.ofNat

/-- The bytes that encoded bytes stand for. A percent sign without two digits stands for itself. -/
def decodeBytes : List UInt8 → List UInt8
  | [] => []
  | [b] => [b]
  | [b, c] => [b, c]
  | b :: c :: d :: rest =>
    match hexDigit? c, hexDigit? d with
    | some high, some low =>
      if b = sign then (16 * high + low) :: decodeBytes rest else b :: decodeBytes (c :: d :: rest)
    | _, _ => b :: decodeBytes (c :: d :: rest)

/-- The text that encoded text stands for, if its bytes are one. -/
def decode? (s : Text) : Option Text :=
  (String.fromUTF8? ⟨(decodeBytes (bytes s)).toArray⟩).map String.toList

/-- The hexadecimal digit of a value. -/
def digit (n : Nat) : Char :=
  if n < 10 then Char.ofNat ('0'.toNat + n) else Char.ofNat ('A'.toNat + (n - 10))

/-- Encode all characters beyond ASCII, all control characters, and all characters that `isUnsafe`
names. -/
def encode (isUnsafe : Char → Bool) (s : Text) : Text :=
  (bytes s).flatMap fun b =>
    let c := Char.ofNat b.toNat
    if b.toNat < 0x20 || 0x7F ≤ b.toNat || isUnsafe c then
      ['%', digit (b.toNat / 16), digit (b.toNat % 16)]
    else [c]

theorem decodeBytes_of_notMem {l : List UInt8} (h : sign ∉ l) : decodeBytes l = l := by
  fun_induction decodeBytes l with
  | case1 => rfl
  | case2 => rfl
  | case3 => rfl
  | case4 => simp_all
  | case5 b c d rest _ _ _ _ _ ih => rw [ih (fun hm => h (List.mem_cons_of_mem _ hm))]
  | case6 b c d rest _ ih => rw [ih (fun hm => h (List.mem_cons_of_mem _ hm))]

end BuildLog.Percent
