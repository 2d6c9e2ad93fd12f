import CapabilityBroker.Memory.Meminfo
import CapabilityBroker.Proofs.Binary64.Arithmetic
import CapabilityBroker.Proofs.Text.Words
/-!
# What a memory report says

Of a report two kinds of lines count, those that begin with one of two
names (`names`). Such a line has to tell a number (`Tells`): a single one
that does not is an error, wherever it stands. The last line of each kind
decides, which is an induction along the lines (`readLines_ok_iff`), and
the other lines make no difference, not even to the error
(`readLines_filter`). The share in use is a quotient of two numbers of
which the lesser is divided by the greater, so it is at most one before
it is moved into the unit interval (`amount_utilization`).
-/

namespace CapabilityBroker

open Text

namespace Meminfo

/-! ## Numbers -/

/-- A word is a decimal number of 64 bits, with a plus sign before its
digits or without. -/
def IsNumber (word : List Char) (n : ℕ) : Prop :=
  ∃ digits, (word = digits ∨ word = '+' :: digits) ∧ digits ≠ [] ∧
    (∀ c ∈ digits, c.isDigit = true) ∧ n = Nat.ofDigitChars 10 digits 0 ∧ n < 2 ^ 64

variable {cs word line : List Char} {lines : List (List Char)} {m n : ℕ} {name : String}
variable {amounts result : Option ℕ × Option ℕ} {before after : Option ℕ}

/-- More digits do not make a number smaller. -/
theorem le_ofDigitChars (n : ℕ) (cs : List Char) : n ≤ Nat.ofDigitChars 10 cs n := by
  rw [Nat.ofDigitChars_eq_ofDigitChars_zero]
  exact (Nat.le_mul_of_pos_left n (by positivity)).trans (Nat.le_add_right _ _)

/-- Digits are read as far as the number they make is not too large. -/
theorem readDigits_ok_iff (hn : n < 2 ^ 64) : readDigits n cs = .ok m ↔
    (∀ c ∈ cs, c.isDigit = true) ∧ m = Nat.ofDigitChars 10 cs n ∧ m < 2 ^ 64 := by
  induction cs generalizing n with
  | nil =>
    rw [readDigits, Nat.ofDigitChars_nil, Except.ok.injEq]
    constructor
    · rintro rfl
      exact ⟨by simp, rfl, hn⟩
    · rintro ⟨-, rfl, -⟩
      rfl
  | cons c cs ih =>
    have hlimit : numberLimit = 2 ^ 64 - 1 := rfl
    have hnext : 10 * n + (c.toNat - '0'.toNat) = 10 * n + (c.toNat - 48) := rfl
    rw [readDigits, Nat.ofDigitChars_cons, List.forall_mem_cons, hnext]
    generalize 10 * n + (c.toNat - 48) = next
    cases hc : c.isDigit with
    | false => simp
    | true =>
      rw [if_neg (by simp)]
      by_cases hlarge : numberLimit < next
      · -- no further digit makes up for it
        have hle := le_ofDigitChars next cs
        rw [if_pos hlarge]
        refine iff_of_false (by simp) ?_
        rintro ⟨-, rfl, hm⟩
        omega
      · rw [if_neg hlarge, ih (by omega)]
        simp

theorem not_isNumber_nil : ¬ IsNumber [] n := by
  rintro ⟨digits, rfl | h, hne, -⟩
  · exact hne rfl
  · cases h

theorem isNumber_plus_iff : IsNumber ('+' :: cs) n ↔
    cs ≠ [] ∧ (∀ c ∈ cs, c.isDigit = true) ∧ n = Nat.ofDigitChars 10 cs 0 ∧ n < 2 ^ 64 := by
  constructor
  · rintro ⟨digits, rfl | h, hne, hdigits, hn⟩
    · exact absurd (hdigits '+' List.mem_cons_self) (by decide)
    · obtain rfl := (List.cons.inj h).2
      exact ⟨hne, hdigits, hn⟩
  · exact fun ⟨hne, hdigits, hn⟩ => ⟨cs, .inr rfl, hne, hdigits, hn⟩

theorem isNumber_iff {c : Char} (hc : c ≠ '+') : IsNumber (c :: cs) n ↔
    (∀ d ∈ c :: cs, d.isDigit = true) ∧ n = Nat.ofDigitChars 10 (c :: cs) 0 ∧ n < 2 ^ 64 := by
  constructor
  · rintro ⟨digits, rfl | h, -, hdigits, hn⟩
    · exact ⟨hdigits, hn⟩
    · exact absurd (List.cons.inj h).1 hc
  · exact fun ⟨hdigits, hn⟩ => ⟨c :: cs, .inl rfl, List.cons_ne_nil c cs, hdigits, hn⟩

/-- **A word is read as the number it is**, and is not read if it is
none. -/
theorem readNumber_ok_iff : readNumber word = .ok n ↔ IsNumber word n := by
  rw [readNumber.eq_def]
  split
  · exact iff_of_false (by simp) not_isNumber_nil
  · exact iff_of_false (by simp) fun h => (isNumber_plus_iff.mp h).1 rfl
  · next cs hcs =>
    rw [isNumber_plus_iff, readDigits_ok_iff (by norm_num)]
    exact (and_iff_right hcs).symm
  · next hnil hplus hplus' =>
    cases word with
    | nil => exact absurd rfl hnil
    | cons c cs =>
      have hc : c ≠ '+' := fun h => hplus' cs (by rw [h])
      rw [isNumber_iff hc, readDigits_ok_iff (by norm_num)]

/-! ## Lines -/

/-- The first word of a line is a name and a colon. -/
def names (name : String) (line : List Char) : Bool :=
  (words line).head? == some (name ++ ":").toList

/-- The second word of a line is a number. -/
def Tells (line : List Char) (n : ℕ) : Prop :=
  ∃ word, (words line)[1]? = some word ∧ IsNumber word n

/-- A line is for one of the two amounts. -/
def counts (line : List Char) : Bool := names totalName line || names availableName line

theorem fields_eq (line : List Char) :
    fields line = ((words line).headD [], (words line).tail.headD []) := by
  change ((nextWord line).1, (nextWord (nextWord line).2).1) = _
  rw [nextWord_fst, nextWord_fst, words_nextWord_snd]

theorem names_iff : names name line = true ↔ (fields line).1 = (name ++ ":").toList := by
  have hne : (name ++ ":").toList ≠ [] := by simp
  rw [names, fields_eq, beq_iff_eq]
  cases words line with
  | nil => simp
  | cons word rest => simp

theorem tells_iff : Tells line n ↔ IsNumber (fields line).2 n := by
  rw [fields_eq, Tells]
  rcases words line with _ | ⟨word, _ | ⟨word', rest⟩⟩
  · simp [not_isNumber_nil]
  · simp [not_isNumber_nil]
  · simp

theorem Tells.unique (hm : Tells line m) (hn : Tells line n) : m = n := by
  rw [tells_iff, ← readNumber_ok_iff] at hm hn
  exact Except.ok.inj (hm.symm.trans hn)

theorem readAmount_ok_iff (name : String) :
    readAmount name (fields line).2 = .ok n ↔ Tells line n := by
  rw [tells_iff, ← readNumber_ok_iff, readAmount]
  split <;> simp_all

theorem map_readAmount_ok_iff {β : Type} {f : ℕ → β} {r : β} :
    (readAmount name (fields line).2).map f = .ok r ↔ ∃ n, Tells line n ∧ r = f n := by
  simp only [← readAmount_ok_iff name]
  cases readAmount name (fields line).2 with
  | error e => simp [Except.map]
  | ok n => simp [Except.map, eq_comm]

/-! ## One line -/

/-- No line is for both amounts. -/
theorem names_available_of_total (h : names totalName line = true) :
    names availableName line = false := by
  rw [names_iff] at h
  rw [← Bool.not_eq_true, names_iff, h]
  decide

theorem readLine_total (h : names totalName line = true) :
    readLine amounts line = .ok result ↔ ∃ n, Tells line n ∧ result = (some n, amounts.2) := by
  have hread : readLine amounts line =
      (readAmount totalName (fields line).2).map fun n => (some n, amounts.2) :=
    if_pos (names_iff.mp h)
  rw [hread, map_readAmount_ok_iff]

theorem readLine_available (h : names availableName line = true) :
    readLine amounts line = .ok result ↔ ∃ n, Tells line n ∧ result = (amounts.1, some n) := by
  have hother : ¬ (fields line).1 = (totalName ++ ":").toList := fun htotal => by
    rw [names_available_of_total (names_iff.mpr htotal)] at h
    cases h
  have hread : readLine amounts line =
      (readAmount availableName (fields line).2).map fun n => (amounts.1, some n) :=
    (if_neg hother).trans (if_pos (names_iff.mp h))
  rw [hread, map_readAmount_ok_iff]

theorem readLine_other (h : counts line = false) : readLine amounts line = .ok amounts := by
  obtain ⟨htotal, havailable⟩ := Bool.or_eq_false_iff.mp h
  exact (if_neg (mt names_iff.mpr (ne_true_of_eq_false htotal))).trans
    (if_neg (mt names_iff.mpr (ne_true_of_eq_false havailable)))

/-- A line for an amount is read only if it has a number. -/
theorem tells_of_readLine (hcounts : counts line = true)
    (h : readLine amounts line = .ok result) : ∃ n, Tells line n := by
  rcases Bool.or_eq_true_iff.mp hcounts with htotal | havailable
  · obtain ⟨n, hn, -⟩ := (readLine_total htotal).mp h
    exact ⟨n, hn⟩
  · obtain ⟨n, hn, -⟩ := (readLine_available havailable).mp h
    exact ⟨n, hn⟩

/-! ## All lines -/

/-- **Lines for neither amount change nothing**, not even which error there
is. -/
theorem readLines_filter (amounts : Option ℕ × Option ℕ) (lines : List (List Char)) :
    readLines amounts (lines.filter counts) = readLines amounts lines := by
  induction lines generalizing amounts with
  | nil => rfl
  | cons line lines ih =>
    cases hcounts : counts line with
    | false =>
      rw [List.filter_cons_of_neg (by simp [hcounts]), ih, readLines, readLine_other hcounts]
    | true =>
      rw [List.filter_cons_of_pos hcounts, readLines, readLines]
      cases readLine amounts line with
      | error e => rfl
      | ok amounts' => exact ih amounts'

/-- The last line for an amount tells a number. -/
def Last (name : String) (lines : List (List Char)) (n : ℕ) : Prop :=
  ∃ line, (lines.filter (names name)).getLast? = some line ∧ Tells line n

/-- What becomes of an amount: the number of the last line for it, and what
it was if there is none. -/
def Becomes (name : String) (lines : List (List Char)) (before after : Option ℕ) : Prop :=
  match (lines.filter (names name)).getLast? with
  | none => after = before
  | some line => ∃ n, Tells line n ∧ after = some n

theorem becomes_cons_of_neg (h : names name line = false) :
    Becomes name (line :: lines) before after ↔ Becomes name lines before after := by
  rw [Becomes, List.filter_cons_of_neg (by simp [h]), ← Becomes]

theorem becomes_cons_of_pos (h : names name line = true) (hn : Tells line n) :
    Becomes name (line :: lines) before after ↔ Becomes name lines (some n) after := by
  rw [Becomes, Becomes, List.filter_cons_of_pos h, List.getLast?_cons]
  cases (lines.filter (names name)).getLast? with
  | none =>
    constructor
    · rintro ⟨m, hm, rfl⟩
      rw [hm.unique hn]
    · rintro rfl
      exact ⟨n, hn, rfl⟩
  | some line' => rfl

/-- **What is read of all lines**: each line for an amount has a number, and
the last one counts. -/
theorem readLines_ok_iff : readLines amounts lines = .ok result ↔
    (∀ line ∈ lines, counts line = true → ∃ n, Tells line n) ∧
      Becomes totalName lines amounts.1 result.1 ∧
      Becomes availableName lines amounts.2 result.2 := by
  induction lines generalizing amounts with
  | nil =>
    constructor
    · intro h
      obtain rfl := Except.ok.inj h
      exact ⟨by simp, rfl, rfl⟩
    · rintro ⟨-, htotal, havailable⟩
      exact congrArg Except.ok (Prod.ext htotal.symm havailable.symm)
  | cons line lines ih =>
    rw [readLines, List.forall_mem_cons]
    cases hcounts : counts line with
    | false =>
      obtain ⟨htotal, havailable⟩ := Bool.or_eq_false_iff.mp hcounts
      rw [readLine_other hcounts, becomes_cons_of_neg htotal, becomes_cons_of_neg havailable]
      simpa using ih
    | true =>
      by_cases htells : ∃ n, Tells line n
      · obtain ⟨n, hn⟩ := htells
        rcases Bool.or_eq_true_iff.mp hcounts with htotal | havailable
        · have hread : readLine amounts line = .ok (some n, amounts.2) :=
            (readLine_total htotal).mpr ⟨n, hn, rfl⟩
          rw [hread, becomes_cons_of_pos htotal hn,
            becomes_cons_of_neg (names_available_of_total htotal), and_iff_right fun _ => ⟨n, hn⟩]
          exact ih
        · have hread : readLine amounts line = .ok (amounts.1, some n) :=
            (readLine_available havailable).mpr ⟨n, hn, rfl⟩
          have htotal : names totalName line = false := by
            by_contra htotal
            rw [names_available_of_total (by simpa using htotal)] at havailable
            cases havailable
          rw [hread, becomes_cons_of_neg htotal, becomes_cons_of_pos havailable hn,
            and_iff_right fun _ => ⟨n, hn⟩]
          exact ih
      · cases hread : readLine amounts line with
        | ok amounts' => exact absurd (tells_of_readLine hcounts hread) htells
        | error e => simp [htells]

/-- What is read from nothing on. -/
theorem becomes_some_iff : Becomes name lines none (some n) ↔ Last name lines n := by
  rw [Becomes, Last]
  cases (lines.filter (names name)).getLast? with
  | none => simp
  | some line =>
    constructor
    · rintro ⟨m, hm, hnm⟩
      obtain rfl := Option.some.inj hnm
      exact ⟨line, rfl, hm⟩
    · rintro ⟨line', hline, hn⟩
      obtain rfl := Option.some.inj hline
      exact ⟨n, hn, rfl⟩

variable {report : List Char} {usage : MemoryUsage}

/-- **A report has a reading** if every line for an amount has a number, and
there is one for each. -/
theorem parse_ok_iff : parse report = .ok usage ↔
    (∀ line ∈ Text.lines report, counts line = true → ∃ n, Tells line n) ∧
      ∃ total available, Last totalName (Text.lines report) total ∧
        Last availableName (Text.lines report) available ∧
        usage = ⟨bytes total, bytes available⟩ := by
  constructor
  · intro h
    rw [parse] at h
    split at h
    · cases h
    · cases h
    · cases h
    · next total available hread =>
      obtain ⟨hall, htotal, havailable⟩ := readLines_ok_iff.mp hread
      exact ⟨hall, total, available, becomes_some_iff.mp htotal,
        becomes_some_iff.mp havailable, (Except.ok.inj h).symm⟩
  · rintro ⟨hall, total, available, htotal, havailable, rfl⟩
    have hread : readLines (none, none) (Text.lines report) = .ok (some total, some available) :=
      readLines_ok_iff.mpr
        ⟨hall, becomes_some_iff.mpr htotal, becomes_some_iff.mpr havailable⟩
    rw [parse, hread]

/-- The later line counts, and a carriage return belongs to no line. -/
example : parse "MemTotal: 5 kB\r\nMemAvailable:\t+1\nMemTotal: 8".toList =
    .ok ⟨8192, 1024⟩ := by
  decide +kernel

theorem exists_last (hall : ∀ line ∈ lines, counts line = true → ∃ n, Tells line n)
    (hcounts : ∀ line, names name line = true → counts line = true)
    (h : ∃ line ∈ lines, names name line = true) : ∃ n, Last name lines n := by
  obtain ⟨line, hmem, hline⟩ := h
  have hne : lines.filter (names name) ≠ [] :=
    List.ne_nil_of_mem (List.mem_filter.mpr ⟨hmem, hline⟩)
  obtain ⟨hlast, hnames⟩ := List.mem_filter.mp (List.getLast_mem hne)
  obtain ⟨n, hn⟩ := hall _ hlast (hcounts _ hnames)
  exact ⟨n, _, List.getLast?_eq_some_getLast hne, hn⟩

theorem Last.exists_line (h : Last name lines n) : ∃ line ∈ lines, names name line = true := by
  obtain ⟨line, hline, -⟩ := h
  exact ⟨line, List.mem_filter.mp (List.mem_of_getLast? hline)⟩

end Meminfo

/-! ## Shares -/

namespace MemoryUsage

open Binary64

variable {x : Float} {q : ℚ}

/-- A share is not moved. -/
theorem clamp_eq (h : Amount x q) (hq : q ≤ 1) : clamp x = x := by
  rw [clamp, if_neg (mt (h.lt_iff amount_zero).mp (not_lt.mpr h.nonneg)),
    if_neg (mt (amount_one.lt_iff h).mp (not_lt.mpr hq))]

/-- **The share in use** is a number of the unit interval. -/
theorem amount_utilization (total available : UInt64) :
    ∃ q ≤ 1, Amount (utilization ⟨total.toNat, available.toNat⟩) q := by
  rw [utilization]
  split
  · exact ⟨0, zero_le_one, amount_zero⟩
  · next hne =>
    have hne' : total.toNat ≠ 0 := hne
    set used := (total.toNat - available.toNat).toUInt64 with hused
    have hle : used.toNat ≤ total.toNat := by
      rw [hused, UInt64.toNat_ofNat_of_lt' ((Nat.sub_le _ _).trans_lt total.toNat_lt_size)]
      exact Nat.sub_le _ _
    have htotal : total.toNat.toUInt64 = total := UInt64.ofNat_toNat
    obtain ⟨p, hp, hpw⟩ := exists_amount_toFloat used
    obtain ⟨q, hq, hqw⟩ := exists_amount_toFloat total
    have hq1 : 1 ≤ q := hq.le_of_le onGrid_one (by exact_mod_cast Nat.one_le_iff_ne_zero.mpr hne')
    have hpq : p ≤ q := by
      rcases hle.lt_or_eq with hlt | heq
      · exact hp.mono hq (by exact_mod_cast hlt)
      · rw [UInt64.toNat_inj.mp heq] at hpw
        exact (hpw.unique hqw).le
    obtain ⟨r, hr, hrw⟩ := (hpw.div hqw (by linarith)).amount onGrid_one
      ((div_le_one (by linarith)).mpr hpq) (in_range_of_le (by norm_num))
    have hr1 : r ≤ 1 := hr.ge_of_ge onGrid_one ((div_le_one (by linarith)).mpr hpq)
    refine ⟨r, hr1, ?_⟩
    simp only [htotal]
    rwa [clamp_eq hrw hr1]

end MemoryUsage

namespace Meminfo

open Binary64

/-- **What a report says**: it is read exactly if every line for an amount has
a number and there is a line for each amount. Then the last line for an
amount counts, in bytes, as far as they can be counted. Lines for neither
amount make no difference, and the share in use is never outside the unit
interval. -/
theorem report_says (report : List Char) :
    ((∃ usage, parse report = .ok usage) ↔
      (∀ line ∈ Text.lines report, names totalName line = true ∨ names availableName line = true →
        ∃ n, Tells line n) ∧
      (∃ line ∈ Text.lines report, names totalName line = true) ∧
      ∃ line ∈ Text.lines report, names availableName line = true) ∧
    (∀ usage, parse report = .ok usage → ∃ total available,
      Last totalName (Text.lines report) total ∧
      Last availableName (Text.lines report) available ∧
      usage.total = min (1024 * total) (2 ^ 64 - 1) ∧
      usage.available = min (1024 * available) (2 ^ 64 - 1)) ∧
    (∀ other, (Text.lines other).filter counts = (Text.lines report).filter counts →
      parse other = parse report) ∧
    ∀ total available : UInt64,
      let share := MemoryUsage.utilization ⟨total.toNat, available.toNat⟩
      0.0 ≤ share ∧ share ≤ 1.0 := by
  refine ⟨⟨?_, ?_⟩, ?_, ?_, ?_⟩
  · rintro ⟨usage, h⟩
    obtain ⟨hall, total, available, htotal, havailable, -⟩ := parse_ok_iff.mp h
    exact ⟨fun line hline hname => hall line hline (Bool.or_eq_true_iff.mpr hname),
      htotal.exists_line, havailable.exists_line⟩
  · rintro ⟨hall, hsome, hsome'⟩
    have hall' : ∀ line ∈ Text.lines report, counts line = true → ∃ n, Tells line n :=
      fun line hline hcounts => hall line hline (Bool.or_eq_true_iff.mp hcounts)
    obtain ⟨total, htotal⟩ := exists_last hall' (fun _ h => Bool.or_eq_true_iff.mpr (.inl h)) hsome
    obtain ⟨available, havailable⟩ :=
      exists_last hall' (fun _ h => Bool.or_eq_true_iff.mpr (.inr h)) hsome'
    exact ⟨_, parse_ok_iff.mpr ⟨hall', total, available, htotal, havailable, rfl⟩⟩
  · intro usage h
    obtain ⟨-, total, available, htotal, havailable, rfl⟩ := parse_ok_iff.mp h
    exact ⟨total, available, htotal, havailable, rfl, rfl⟩
  · intro other hsame
    rw [parse, parse, ← readLines_filter, hsame, readLines_filter]
  · intro total available share
    obtain ⟨q, hq, hshare⟩ := MemoryUsage.amount_utilization total available
    exact ⟨(amount_zero.le_iff hshare).mpr hshare.nonneg, (hshare.le_iff amount_one).mpr hq⟩

end Meminfo

end CapabilityBroker
