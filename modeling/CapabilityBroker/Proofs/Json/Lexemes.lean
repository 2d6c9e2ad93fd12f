import CapabilityBroker.Json.Document
import CapabilityBroker.Json.Printer
/-!
# Strings and whole numbers in JSON text

What is written of a string is read back as the string
(`readString_stringText`): each character is written as one lexeme, and the
lexeme gives that character again. A whole number is written as the digits
of its literal (`Numeral.ofInt`), and the literal is read back where the
text goes on with something that no number goes on with (`EndsNumber`).
-/

namespace CapabilityBroker

namespace Document

/-! ## Strings -/

theorem hexValue?_hexDigit : ∀ n < 16, hexValue? (Json.hexDigit n) = some n := by decide

/-- A control character is the one its two hexadecimal digits number. -/
theorem hexUnit?_control {n : Nat} (h : n < 0x20) :
    hexUnit? '0' '0' (Json.hexDigit (n / 16)) (Json.hexDigit (n % 16)) = some n := by
  have hzero : hexValue? '0' = some 0 := by decide
  have hhigh := hexValue?_hexDigit (n / 16) (by omega)
  have hlow := hexValue?_hexDigit (n % 16) (by omega)
  simp only [hexUnit?, hzero, hhigh, hlow, bind, Option.bind, pure, Option.some.injEq]
  omega

/-- No control character is half of another character. -/
theorem ofUnit_control {c : Char} (h : c.toNat < 0x20) : Piece.ofUnit c.toNat = .char c := by
  have hhigh : isHighHalf c.toNat = false := by simp [isHighHalf]; omega
  have hlow : isLowHalf c.toNat = false := by simp [isLowHalf]; omega
  simp [Piece.ofUnit, hhigh, hlow, Char.ofNat_toNat]

/-- **How a character is written**: as a letter after a backslash, as the
number of a control character, or as itself. -/
theorem escapeChar_cases (c : Char) :
    (∃ e, e ≠ 'u' ∧ escaped? e = some c ∧ Json.escapeChar c = ['\\', e]) ∨
    (c.toNat < 0x20 ∧ Json.escapeChar c =
      ['\\', 'u', '0', '0', Json.hexDigit (c.toNat / 16), Json.hexDigit (c.toNat % 16)]) ∨
    (c ≠ '"' ∧ c ≠ '\\' ∧ 0x20 ≤ c.toNat ∧ Json.escapeChar c = [c]) := by
  have letter {d e : Char} (hc : c = d) (hne : e ≠ 'u') (he : escaped? e = some d) :
      ∃ e', e' ≠ 'u' ∧ escaped? e' = some c ∧ ['\\', e] = ['\\', e'] :=
    ⟨e, hne, hc ▸ he, rfl⟩
  unfold Json.escapeChar
  split
  · next hc => exact .inl (letter hc (by decide) rfl)
  split
  · next hc => exact .inl (letter hc (by decide) rfl)
  split
  · next hc => exact .inl (letter hc (by decide) rfl)
  split
  · next hc => exact .inl (letter hc (by decide) rfl)
  split
  · next hc => exact .inl (letter hc (by decide) rfl)
  split
  · next hc => exact .inl (letter hc (by decide) rfl)
  split
  · next hc => exact .inl (letter hc (by decide) rfl)
  split
  · next hcontrol => exact .inr (.inl ⟨hcontrol, rfl⟩)
  · next hquote hslash _ _ _ _ _ hplain =>
    exact .inr (.inr ⟨hquote, hslash, Nat.le_of_not_lt hplain, rfl⟩)

/-- **A character is written as one lexeme**, which is read as the
character. -/
theorem readPieces_escapeChar (c : Char) (rest : List Char) :
    readPieces (Json.escapeChar c ++ rest) =
      (readPieces rest).bind fun p => some (.char c :: p.1, p.2) := by
  rcases escapeChar_cases c with ⟨e, hne, he, heq⟩ | ⟨hcontrol, heq⟩ | ⟨hquote, hslash, hplain, heq⟩
  · rw [heq]
    simp [readPieces, hne, he]
  · rw [heq]
    simp [readPieces, hexUnit?_control hcontrol, ofUnit_control hcontrol]
  · have hshown : ¬ c.toNat < 0x20 := Nat.not_lt.mpr hplain
    rw [heq]
    simp [readPieces, hslash, hshown]

theorem readPieces_flatMap (cs rest : List Char) :
    readPieces (cs.flatMap Json.escapeChar ++ '"' :: rest) = some (cs.map .char, rest) := by
  induction cs with
  | nil => rfl
  | cons c cs ih =>
    rw [List.flatMap_cons, List.append_assoc, readPieces_escapeChar, ih]
    rfl

theorem join_map_char (cs : List Char) : join (cs.map .char) = some cs := by
  induction cs with
  | nil => rfl
  | cons c cs ih => rw [List.map_cons, join, ih]; rfl

/-- **A string is read back** from what is written of it after the opening
quote. -/
theorem readString_stringText (s : String) (rest : List Char) :
    readString (s.toList.flatMap Json.escapeChar ++ '"' :: rest) = some (some s, rest) := by
  simp only [readString, readPieces_flatMap, join_map_char, Option.map_some,
    String.ofList_toList, bind, Option.bind, pure]

end Document

/-! ## Whole numbers -/

namespace Numeral

/-- The decimal digits of a number, with no zero before them. -/
def digits (n : Nat) : List Nat := (Nat.toDigits 10 n).map fun c => c.toNat - 0x30

/-- The literal of a whole number. -/
def ofInt : Int → Numeral
  | .ofNat n => ⟨false, digits n, none, none⟩
  | .negSucc n => ⟨true, digits (n + 1), none, none⟩

theorem ofDigits_digits (n : Nat) : ofDigits (digits n) = n := by
  rw [ofDigits, digits, List.foldl_map]
  exact Nat.ofDigitChars_eq_foldl.symm.trans Nat.ofDigitChars_ten_toDigits

/-- More digits make a number no smaller. -/
theorem le_foldl_digits (ds : List Nat) (s : Nat) :
    s ≤ ds.foldl (fun n d => 10 * n + d) s := by
  induction ds generalizing s with
  | nil => exact Nat.le_refl s
  | cons d ds ih => exact Nat.le_trans (by omega) (ih (10 * s + d))

/-- Digits are gathered to the last one if the number they stand for is a
significand. -/
theorem gather_eq {s : Nat} {ds : List Nat}
    (h : ds.foldl (fun n d => 10 * n + d) s ≤ significandLimit) :
    gather s ds = (ds.foldl (fun n d => 10 * n + d) s, []) := by
  induction ds generalizing s with
  | nil => rfl
  | cons d ds ih =>
    rw [List.foldl_cons] at h ⊢
    have hle : s * 10 + d ≤ significandLimit :=
      Nat.mul_comm s 10 ▸ Nat.le_trans (le_foldl_digits ds (10 * s + d)) h
    rw [gather, if_pos hle, Nat.mul_comm s 10]
    exact ih h

/-- **The literal of a number stands for the number**, if it fits into 64
bits. -/
theorem value?_ofInt {n : Nat} (h : n ≤ significandLimit) :
    (ofInt n).value? = some (.integer n) := by
  have hgather : gather 0 (digits n) = (n, []) := by
    have hsum : (digits n).foldl (fun n d => 10 * n + d) 0 = n := ofDigits_digits n
    rw [gather_eq (by omega), hsum]
  change value? ⟨false, digits n, none, none⟩ = _
  simp [value?, hgather]

end Numeral

namespace Document

/-- A text does not go on with what a number may go on with. -/
def EndsNumber (cs : List Char) : Prop :=
  ∀ c ∈ cs.head?, c.isDigit = false ∧ c ≠ '.' ∧ c ≠ 'e' ∧ c ≠ 'E'

variable {cs rest : List Char} {n : Nat}

theorem readDigits_append (hcs : ∀ c ∈ cs, c.isDigit = true)
    (hrest : ∀ c ∈ rest.head?, c.isDigit = false) :
    readDigits (cs ++ rest) = (cs.map fun c => c.toNat - 0x30, rest) := by
  induction cs with
  | nil =>
    cases rest with
    | nil => rfl
    | cons c rest => simp [readDigits, digit?, hrest c rfl]
  | cons c cs ih =>
    have htail := ih fun d hd => hcs d (List.mem_cons_of_mem c hd)
    simp [readDigits, digit?, hcs c List.mem_cons_self, htail]

/-- The digits of a number begin with a zero only where it is zero. -/
theorem head?_toDigits_ne (h : n ≠ 0) : (Nat.toDigits 10 n).head? ≠ some '0' := by
  induction n using Nat.strongRecOn with
  | ind n ih =>
    rw [Nat.toDigits_eq_if (by decide)]
    split
    · next hlt =>
      have hdigit : ∀ d < 10, d ≠ 0 → Nat.digitChar d ≠ '0' := by decide
      simpa using hdigit n hlt h
    · next hge =>
      rw [List.head?_append, Option.or_of_isSome (by simp [Nat.toDigits_ne_nil])]
      exact ih (n / 10) (by omega) (by omega)

theorem readWhole_toDigits (n : Nat) (hrest : EndsNumber rest) :
    readWhole (Nat.toDigits 10 n ++ rest) = some (Numeral.digits n, rest) := by
  by_cases hn : n = 0
  · subst hn
    rfl
  · have hdigits := readDigits_append
      (fun c hc => Nat.isDigit_of_mem_toDigits (b := 10) (n := n) (by decide) (Nat.le_refl _) hc)
      fun c hc => (hrest c hc).1
    cases hcs : Nat.toDigits 10 n with
    | nil => exact absurd hcs Nat.toDigits_ne_nil
    | cons c cs =>
      have hc : c ≠ '0' := fun hzero => head?_toDigits_ne hn (by rw [hcs, hzero]; rfl)
      rw [hcs] at hdigits
      unfold readWhole
      split
      · next heq => exact absurd (List.cons.inj heq).1 hc
      · rw [hdigits, Numeral.digits, hcs]
        rfl

theorem readFraction_of_endsNumber (h : EndsNumber rest) :
    readFraction rest = some (none, rest) := by
  unfold readFraction
  split
  · next rest => exact absurd rfl (h '.' rfl).2.1
  · rfl

theorem readExponent_of_endsNumber (h : EndsNumber rest) :
    readExponent rest = some (none, rest) := by
  unfold readExponent
  cases rest with
  | nil => rfl
  | cons c rest =>
    obtain ⟨-, -, he, hE⟩ := h c rfl
    simp [he, hE]

/-- The text of a whole number begins with a digit or with a sign. -/
theorem text_integer_cons (n : Int) :
    ∃ c cs, (Json.Number.integer n).text = c :: cs ∧ (c.isDigit = true ∨ c = '-') := by
  cases n with
  | ofNat n =>
    obtain ⟨c, cs, hcs⟩ := List.exists_cons_of_ne_nil (Nat.toDigits_ne_nil (n := n) (b := 10))
    have hc : c ∈ Nat.toDigits 10 n := hcs ▸ List.mem_cons_self
    exact ⟨c, cs, hcs, .inl (Nat.isDigit_of_mem_toDigits (by decide) (Nat.le_refl 10) hc)⟩
  | negSucc n => exact ⟨'-', Nat.toDigits 10 (n + 1), rfl, .inr rfl⟩

/-- **The literal of a whole number is read back** from its text. -/
theorem readNumeral_text (n : Int) (hrest : EndsNumber rest) :
    readNumeral ((Json.Number.integer n).text ++ rest) = some (Numeral.ofInt n, rest) := by
  cases n with
  | ofNat n =>
    have hwhole := readWhole_toDigits n hrest
    obtain ⟨c, cs, hcs⟩ := List.exists_cons_of_ne_nil (Nat.toDigits_ne_nil (n := n) (b := 10))
    have hminus : c ≠ '-' := by
      rintro rfl
      have hmem : '-' ∈ Nat.toDigits 10 n := hcs ▸ List.mem_cons_self
      cases Nat.isDigit_of_mem_toDigits (by decide) (Nat.le_refl 10) hmem
    change readNumeral (Nat.toDigits 10 n ++ rest) = _
    rw [hcs, List.cons_append] at hwhole ⊢
    simp [readNumeral, hminus, hwhole, readFraction_of_endsNumber hrest,
      readExponent_of_endsNumber hrest, Numeral.ofInt]
  | negSucc n =>
    have hwhole := readWhole_toDigits (n + 1) hrest
    simp [Json.Number.text, readNumeral, hwhole, readFraction_of_endsNumber hrest,
      readExponent_of_endsNumber hrest, Numeral.ofInt]

end Document

end CapabilityBroker
