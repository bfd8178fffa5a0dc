import ApiTypes.Json.NumberReader
import ApiTypes.Json.Printer
import ApiTypes.Proofs.Identifier

/-!
# Integers in compact text

An integer of 64 bits is written as its digits, with a sign in front of them where it is
negative.  The reader of numbers takes these digits up to a comma, a closing bracket or
the end of the text, and gives the integer back.
-/

namespace ApiTypes

/-- Whether a number is an integer of 64 bits, with or without a sign. -/
def Number.IsInteger : Number → Prop
  | .integer n => -Nat.pow 2 63 ≤ n ∧ n < Nat.pow 2 64
  | .double _ => False

instance : DecidablePred Number.IsInteger
  | .integer n => inferInstanceAs (Decidable (-Nat.pow 2 63 ≤ n ∧ n < Nat.pow 2 64))
  | .double _ => isFalse id

namespace Json
open Name (Follows Stops takeWhile_append_stops dropWhile_append_stops)

/-- What may follow a value in a compact text. -/
def closers : List Char := [',', ']', '\x7d']

/-! ### Digits -/

theorem le_ofDigitChars (digits : List Char) (n : Nat) : n ≤ Nat.ofDigitChars 10 digits n := by
  induction digits generalizing n with
  | nil => exact Nat.le_refl n
  | cons d rest ih =>
    have hrest := ih (10 * n + (d.toNat - '0'.toNat))
    rw [Nat.ofDigitChars_cons]
    omega

theorem accumulate_eq {limit : Nat} (digits : List Char) (n : Nat)
    (h : Nat.ofDigitChars 10 digits n ≤ limit) :
    accumulate limit n digits = (Nat.ofDigitChars 10 digits n, []) := by
  induction digits generalizing n with
  | nil => rfl
  | cons d rest ih =>
    have hdigit : n * 10 + digitValue d = 10 * n + (d.toNat - '0'.toNat) := by
      rw [Nat.mul_comm]
      rfl
    rw [Nat.ofDigitChars_cons] at h ⊢
    -- what has been read never exceeds the whole, so no digit is dropped
    have hfits := Nat.le_trans (le_ofDigitChars rest _) h
    rw [accumulate, hdigit, if_pos hfits, ih _ h]

theorem isDigit_of_mem_toDigits {n : Nat} {d : Char} (h : d ∈ Nat.toDigits 10 n) :
    d.isDigit = true :=
  Nat.isDigit_of_mem_toDigits (by decide) (by decide) h

theorem exists_toDigits_eq_cons (n : Nat) : ∃ d digits, Nat.toDigits 10 n = d :: digits :=
  List.exists_cons_of_ne_nil Nat.toDigits_ne_nil

/-- Only zero is written with a zero in front. -/
theorem head?_toDigits_ne {n : Nat} (h : 0 < n) : (Nat.toDigits 10 n).head? ≠ some '0' := by
  induction n using Nat.strongRecOn with
  | ind n ih =>
    obtain hlt | hle := Nat.lt_or_ge n 10
    · have key : ∀ n : Fin 10, 0 < n.val → n.val.digitChar ≠ '0' := by decide
      rw [Nat.toDigits_of_lt_base hlt]
      simpa using key ⟨n, hlt⟩ h
    · have hfront := ih (n / 10) (by omega) (by omega)
      obtain ⟨d, digits, hdigits⟩ := exists_toDigits_eq_cons (n / 10)
      rw [hdigits] at hfront
      rwa [Nat.toDigits_of_base_le (by decide) hle, hdigits]

/-! ### Reading them -/

section
variable {rest : List Char} (negative : Bool) (offset : Nat)

theorem readMagnitude_digits {d : Char} {digits : List Char}
    (hdigits : ∀ c ∈ d :: digits, c.isDigit = true) (hzero : d = '0' → digits = [])
    (hfits : Nat.ofDigitChars 10 (d :: digits) 0 ≤ maxSignificand)
    (hrest : Follows closers rest) :
    ∃ stop, readMagnitude negative ⟨d :: (digits ++ rest), offset⟩ =
      .ok (integer negative (Nat.ofDigitChars 10 (d :: digits) 0), ⟨rest, stop⟩) := by
  have hstops : Stops Char.isDigit rest := hrest.stops (by decide)
  have htake : takeDigits ⟨d :: (digits ++ rest), offset⟩ =
      (d :: digits, ⟨rest, offset + (d :: digits).length⟩) := by
    rw [takeDigits, ← List.cons_append, takeWhile_append_stops hdigits hstops,
      dropWhile_append_stops hdigits hstops]
  have hlength : ¬ (d = '0' ∧ (d :: digits).length ≠ 1) := by
    rintro ⟨hd, hlength⟩
    exact hlength (by rw [hzero hd]; rfl)
  refine ⟨offset + (d :: digits).length, ?_⟩
  simp only [readMagnitude, hdigits d List.mem_cons_self, if_true, htake, if_neg hlength,
    accumulate_eq (d :: digits) 0 hfits]
  split
  · exact absurd rfl (hrest.ne (by decide))
  · exact absurd rfl (hrest.ne (by decide))
  · exact absurd rfl (hrest.ne (by decide))
  · rfl

theorem readMagnitude_toDigits {n : Nat} (hn : n ≤ maxSignificand)
    (hrest : Follows closers rest) :
    ∃ stop, readMagnitude negative ⟨Nat.toDigits 10 n ++ rest, offset⟩ =
      .ok (integer negative n, ⟨rest, stop⟩) := by
  have hvalue : Nat.ofDigitChars 10 (Nat.toDigits 10 n) 0 = n := Nat.ofDigitChars_ten_toDigits
  have hdigits : ∀ c ∈ Nat.toDigits 10 n, c.isDigit = true := fun c => isDigit_of_mem_toDigits
  have hzero := @head?_toDigits_ne n
  have hone : n = 0 → Nat.toDigits 10 n = ['0'] := by
    rintro rfl
    rfl
  obtain ⟨d, digits, hcons⟩ := exists_toDigits_eq_cons n
  rw [hcons] at hvalue hdigits hzero hone ⊢
  rw [← hvalue] at hn
  have hread := readMagnitude_digits negative offset hdigits (fun hd => ?_) hn hrest
  · rwa [hvalue] at hread
  · -- a zero in front is that of zero itself
    obtain rfl | hpos := Nat.eq_zero_or_pos n
    · exact (List.cons.inj (hone rfl)).2
    · exact absurd (by rw [hd]; rfl) (hzero hpos)

end

theorem text_ofNat (n : Nat) : (Number.integer (.ofNat n)).text.toList = Nat.toDigits 10 n :=
  String.toList_ofList

theorem text_negSucc (n : Nat) :
    (Number.integer (.negSucc n)).text.toList = '-' :: Nat.toDigits 10 (n + 1) := by
  show ("-" ++ Nat.repr (n + 1)).toList = _
  rw [String.toList_append]
  exact congrArg ('-' :: ·) String.toList_ofList

theorem exists_head_text (n : Int) : ∃ x xs, (Number.integer n).text.toList = x :: xs ∧
    (x = '-' ∨ x.isDigit = true) := by
  cases n with
  | ofNat n =>
    obtain ⟨d, digits, hcons⟩ := exists_toDigits_eq_cons n
    have hmem : d ∈ Nat.toDigits 10 n := hcons ▸ List.mem_cons_self
    exact ⟨d, digits, (text_ofNat n).trans hcons, .inr (isDigit_of_mem_toDigits hmem)⟩
  | negSucc n => exact ⟨'-', _, text_negSucc n, .inl rfl⟩

theorem readNumber_text {n : Int} (hn : (Number.integer n).IsInteger) {rest : List Char}
    (hrest : Follows closers rest) (offset : Nat) :
    ∃ stop, readNumber ⟨(Number.integer n).text.toList ++ rest, offset⟩ =
      .ok (.integer n, ⟨rest, stop⟩) := by
  have hlimit : maxSignificand = 2 ^ 64 - 1 := rfl
  have hpow : Nat.pow 2 63 = 2 ^ 63 := rfl
  have hpow' : Nat.pow 2 64 = 2 ^ 64 := rfl
  cases n with
  | ofNat n =>
    have hhigh : (n : Int) < Nat.pow 2 64 := hn.2
    obtain ⟨stop, hread⟩ := readMagnitude_toDigits false offset (n := n) (by omega) hrest
    refine ⟨stop, ?_⟩
    rw [text_ofNat, readNumber]
    split
    · rename_i hsign
      obtain ⟨d, digits, hcons⟩ := exists_toDigits_eq_cons n
      rw [hcons] at hsign
      have hmem : '-' ∈ Nat.toDigits 10 n := by
        rw [hcons, (List.cons.inj hsign).1]
        exact List.mem_cons_self
      cases isDigit_of_mem_toDigits hmem
    · exact hread
  | negSucc n =>
    have hlow : -Nat.pow 2 63 ≤ Int.negSucc n := hn.1
    obtain ⟨stop, hread⟩ :=
      readMagnitude_toDigits true (offset + '-'.utf8Size) (n := n + 1) (by omega) hrest
    have hinteger : integer true (n + 1) = .integer (.negSucc n) := by
      rw [integer, if_pos rfl, if_neg (by omega)]
      rfl
    rw [hinteger] at hread
    refine ⟨stop, ?_⟩
    rw [text_negSucc]
    exact hread

end Json

end ApiTypes
