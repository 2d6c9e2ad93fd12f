import CapabilityBroker.Proofs.Bucket.Refill
/-!
# The rate a bucket lets through

A request that passes costs a token of the credit, a refill adds nothing
to it, and time adds the rate. So from one instant to a later one no more
requests pass than the credit at the first and what falls due in between
(`Sound.admissions_le`). The credit is the capacity at most, but for a full
bucket whose clock was left behind: it lets one request more through.
-/

namespace CapabilityBroker

namespace TokenBucket

open RateLimit

variable {b : TokenBucket Rat} {limit : RateLimit} {query : Query} {queries : List (Nat × Query)}
variable {now first last : Nat}

/-! ## One query -/

/-- **What a query does to a refilled bucket**: nothing, or it spends a
token. -/
theorem ask_cases (b : TokenBucket Rat) (now : Nat) (query : Query) :
    ((b.ask now query).1 = b.refill now ∧ (b.ask now query).2.admits = false) ∨
    (1 ≤ (b.refill now).tokens ∧ (b.ask now query).2.admits = true ∧
      (b.ask now query).1 = { b.refill now with tokens := (b.refill now).tokens - 1 }) := by
  cases query with
  | consume =>
    simp only [ask, consume]
    split
    · next htoken => exact .inr ⟨of_decide_eq_true htoken, rfl, rfl⟩
    · exact .inl ⟨rfl, rfl⟩
  | available => exact .inl ⟨rfl, rfl⟩
  | timeUntilNext => exact .inl ⟨rfl, rfl⟩

/-- A request passes if there is a token. -/
theorem consume_of_one_le (htoken : 1 ≤ (b.refill now).tokens) :
    (b.ask now .consume).2.admits = true ∧
    (b.ask now .consume).1 = { b.refill now with tokens := (b.refill now).tokens - 1 } := by
  have hhas : (b.refill now).hasToken = true := decide_eq_true htoken
  simp only [ask, consume, hhas, if_true]
  exact ⟨rfl, rfl⟩

namespace Sound

theorem refill (h : Sound b now) : Sound (b.refill now) now := h.refilled.sound h

theorem ask (h : Sound b now) (query : Query) : Sound (b.ask now query).1 now := by
  obtain ⟨hcapacity, hwindow, ⟨n, hn⟩, htokens, hclock⟩ := h.refill
  rcases ask_cases b now query with ⟨heq, -⟩ | ⟨htoken, -, heq⟩
  · exact heq ▸ h.refill
  · rw [heq]
    rw [hn] at htoken
    refine ⟨hcapacity, hwindow, ⟨n - 1, ?_⟩, by simp only; linarith, hclock⟩
    rw [Nat.cast_sub (Nat.one_le_cast.mp htoken), hn, Nat.cast_one]

theorem limit_ask (h : Sound b now) (query : Query) : (b.ask now query).1.limit = b.limit := by
  rcases ask_cases b now query with ⟨heq, -⟩ | ⟨-, -, heq⟩
  · rw [heq, h.refilled.limit_eq]
  · rw [heq]
    exact h.refilled.limit_eq

end Sound

/-- **A request that passes costs a token.** -/
theorem credit_ask (b : TokenBucket Rat) (now : Nat) (query : Query) :
    (b.ask now query).1.credit now + (b.ask now query).2.admits.toNat
      = (b.refill now).credit now := by
  rcases ask_cases b now query with ⟨heq, hadmits⟩ | ⟨-, hadmits, heq⟩
  · simp [heq, hadmits]
  · rw [heq, hadmits]
    simp only [credit, due, Bool.toNat_true, Nat.cast_one]
    ring

/-! ## Histories -/

theorem answers_append (b : TokenBucket Rat) (queries later : List (Nat × Query)) :
    b.answers (queries ++ later) = b.answers queries ++ (b.run queries).answers later := by
  induction queries generalizing b with
  | nil => rfl
  | cons q queries ih => exact congrArg _ (ih _)

theorem admissions_append (answers later : List (Nat × Answer)) :
    admissions (answers ++ later) first last
      = admissions answers first last + admissions later first last :=
  List.countP_append

/-- The requests that pass before and after an instant in question do not
count. -/
theorem admissions_eq_zero (b : TokenBucket Rat)
    (hout : ∀ q ∈ queries, ¬ (first ≤ q.1 ∧ q.1 ≤ last)) :
    admissions (b.answers queries) first last = 0 := by
  induction queries generalizing b with
  | nil => rfl
  | cons q queries ih =>
    have hrest := ih (b.ask q.1 q.2).1 fun r hr => hout r (List.mem_cons_of_mem _ hr)
    have hq := hout q List.mem_cons_self
    simp only [answers, admissions, List.countP_cons, hq, decide_false, Bool.false_and] at hrest ⊢
    exact hrest

theorem admissions_cons (a : Nat × Answer) (answers : List (Nat × Answer))
    (hin : first ≤ a.1 ∧ a.1 ≤ last) :
    (admissions (a :: answers) first last : Rat)
      = admissions answers first last + a.2.admits.toNat := by
  simp only [admissions, List.countP_cons, hin, and_self, decide_true, Bool.true_and]
  cases a.2.admits <;> simp

theorem queriesWithin_cons (q : Nat × Query) (queries : List (Nat × Query))
    (hin : first ≤ q.1 ∧ q.1 ≤ last) :
    queriesWithin (q :: queries) first last = queriesWithin queries first last + 1 := by
  simp [queriesWithin, hin]

theorem InOrder.nil (now : Nat) : InOrder now [] := List.pairwise_singleton _ _

theorem inOrder_cons {q : Nat × Query} :
    InOrder now (q :: queries) ↔ now ≤ q.1 ∧ InOrder q.1 queries := by
  constructor
  · intro h
    obtain ⟨hnow, hrest⟩ := List.pairwise_cons.mp h
    exact ⟨hnow _ List.mem_cons_self, hrest⟩
  · rintro ⟨hnow, hrest⟩
    refine List.pairwise_cons.mpr ⟨fun t ht => ?_, hrest⟩
    rcases List.mem_cons.mp ht with rfl | ht
    · exact hnow
    · exact hnow.trans ((List.pairwise_cons.mp hrest).1 t ht)

theorem InOrder.le (h : InOrder now queries) {q : Nat × Query} (hq : q ∈ queries) : now ≤ q.1 :=
  (List.pairwise_cons.mp h).1 _ (List.mem_map.mpr ⟨q, hq, rfl⟩)

/-- After a query that is too late to count there are no others. -/
theorem admissions_of_late (b : TokenBucket Rat) {q : Nat × Query} (hlate : ¬ q.1 ≤ last)
    (horder : InOrder q.1 queries) : admissions (b.answers (q :: queries)) first last = 0 := by
  have hafter : InOrder q.1 (q :: queries) := inOrder_cons.mpr ⟨le_refl q.1, horder⟩
  exact admissions_eq_zero b fun r hr hin => hlate ((hafter.le hr).trans hin.2)

/-- The requests of a history pass on the credit of the bucket refilled
for the first of them. -/
theorem Sound.admissions_cons_le {q : Nat × Query} (h : Sound b q.1)
    (hin : first ≤ q.1 ∧ q.1 ≤ last)
    (hrest : (admissions ((b.ask q.1 q.2).1.answers queries) first last : Rat)
      ≤ (b.ask q.1 q.2).1.credit last + queriesWithin queries first last * b.limit.slack) :
    admissions (b.answers (q :: queries)) first last
      ≤ (b.refill q.1).credit q.1 + (last - q.1) * b.limit.rate
        + queriesWithin queries first last * b.limit.slack := by
  have hcost := credit_ask b q.1 q.2
  have hfalls := credit_later (b.ask q.1 q.2).1 q.1 last
  rw [h.limit_ask] at hfalls
  rw [answers, admissions_cons _ _ hin]
  linarith

/-- **No more requests pass than there is credit for.** -/
theorem Sound.admissions_le (h : Sound b now) (hfirst : first ≤ now) (hnow : now ≤ last)
    (horder : InOrder now queries) :
    admissions (b.answers queries) first last
      ≤ b.credit last + queriesWithin queries first last * b.limit.slack := by
  induction queries generalizing b now with
  | nil =>
    have hcredit := (h.mono hnow).credit_nonneg
    simpa [answers, admissions, queriesWithin] using hcredit
  | cons q queries ih =>
    obtain ⟨hle, horder⟩ := inOrder_cons.mp horder
    by_cases hlast : q.1 ≤ last
    · have hq := h.mono hle
      have hin : first ≤ q.1 ∧ q.1 ≤ last := ⟨hfirst.trans hle, hlast⟩
      have hrest := ih (hq.ask q.2) hin.1 hin.2 horder
      rw [hq.limit_ask] at hrest
      have hcons := hq.admissions_cons_le hin hrest
      have hrefill := hq.refilled.credit_le hq
      have hfalls := credit_later b q.1 last
      rw [queriesWithin_cons q queries hin, Nat.cast_succ]
      linarith
    · have hslack : 0 ≤ b.limit.slack := slack_nonneg
      have hcredit := (h.mono hnow).credit_nonneg
      rw [admissions_of_late b hlast horder, Nat.cast_zero]
      positivity

theorem bound_nonneg (limit : RateLimit) (hle : first ≤ last) (n : Nat) :
    0 ≤ (limit.capacity : Rat) + (last - first) * limit.rate + n * limit.slack := by
  have hspan : (0 : Rat) ≤ last - first := sub_nonneg.mpr (Nat.cast_le.mpr hle)
  have hrate : 0 ≤ limit.rate := rate_nonneg
  have hslack : 0 ≤ limit.slack := slack_nonneg
  positivity

/-- **From one instant to a later one** less than a request more passes
than the capacity and what falls due in between, but for the slack. -/
theorem Sound.admissions_lt (h : Sound b now) (hle : first ≤ last) (horder : InOrder now queries) :
    admissions (b.answers queries) first last < b.limit.capacity + 1
      + (last - first) * b.limit.rate + queriesWithin queries first last * b.limit.slack := by
  induction queries generalizing b now with
  | nil =>
    have hbound := bound_nonneg b.limit hle 0
    simp only [answers, admissions, queriesWithin, List.countP_nil, Nat.cast_zero] at hbound ⊢
    linarith
  | cons q queries ih =>
    obtain ⟨hnow, horder⟩ := inOrder_cons.mp horder
    have hq := h.mono hnow
    by_cases hin : first ≤ q.1 ∧ q.1 ≤ last
    · -- the first query that counts
      have hrest := (hq.ask q.2).admissions_le hin.1 hin.2 horder
      rw [hq.limit_ask] at hrest
      have hcons := hq.admissions_cons_le hin hrest
      have hcredit := hq.refilled.credit_lt hq
      have hfalls : ((last : Rat) - q.1) * b.limit.rate ≤ (last - first) * b.limit.rate :=
        mul_le_mul_of_nonneg_right (sub_le_sub_left (Nat.cast_le.mpr hin.1) _) rate_nonneg
      rw [queriesWithin_cons q queries hin, Nat.cast_succ]
      linarith
    · have hrest := ih (hq.ask q.2) horder
      rw [hq.limit_ask] at hrest
      simp only [answers, admissions, queriesWithin, List.countP_cons, hin, decide_false,
        Bool.false_and] at hrest ⊢
      exact hrest

/-- **If its clock is not left behind** when it is full, a bucket lets no
more requests through from then on than its capacity and what falls due,
but for the slack. -/
theorem Sound.admissions_le_capacity (h : Sound b now) (hclock : ¬ (b.refill now).Behind now)
    (hnow : now ≤ last) (horder : InOrder now queries) :
    admissions (b.answers queries) now last ≤ b.limit.capacity
      + (last - now) * b.limit.rate + queriesWithin queries now last * b.limit.slack := by
  cases queries with
  | nil =>
    simpa only [answers, admissions, queriesWithin, List.countP_nil, Nat.cast_zero]
      using bound_nonneg b.limit hnow 0
  | cons q queries =>
    obtain ⟨hle, horder'⟩ := inOrder_cons.mp horder
    have hq := h.mono hle
    by_cases hlast : q.1 ≤ last
    · have hrest := (hq.ask q.2).admissions_le hle hlast horder'
      rw [hq.limit_ask] at hrest
      have hcons := hq.admissions_cons_le ⟨hle, hlast⟩ hrest
      have hcredit := h.refilled.credit_le_capacity h hclock hle hq.refilled
      rw [queriesWithin_cons q queries ⟨hle, hlast⟩, Nat.cast_succ]
      linarith
    · rw [admissions_of_late b hlast horder', Nat.cast_zero]
      exact bound_nonneg b.limit hnow _

theorem Sound.run (h : Sound b now) (horder : InOrder now queries) (hlast : ∀ q ∈ queries, q.1 ≤ last)
    (hnow : now ≤ last) : Sound (b.run queries) last ∧ (b.run queries).limit = b.limit := by
  induction queries generalizing b now with
  | nil => exact ⟨h.mono hnow, rfl⟩
  | cons q queries ih =>
    obtain ⟨hle, horder⟩ := inOrder_cons.mp horder
    have hq := h.mono hle
    have hrest := ih (hq.ask q.2) horder (fun r hr => hlast r (List.mem_cons_of_mem _ hr))
      (hlast q List.mem_cons_self)
    exact ⟨hrest.1, hrest.2.trans (hq.limit_ask q.2)⟩

/-! ## One request more -/

/-- While no token is due, as many requests pass as there are tokens. -/
theorem Sound.spend (h : Sound b now) (hdue : b.due now < 1) (hnow : now ≤ last) {n : Nat}
    (htokens : b.tokens = n) :
    b.run (List.replicate n (now, .consume)) = { b with tokens := 0 } ∧
    admissions (b.answers (List.replicate n (now, .consume))) now last = n := by
  induction n generalizing b with
  | zero =>
    rw [Nat.cast_zero] at htokens
    exact ⟨by rw [← htokens]; rfl, rfl⟩
  | succ n ih =>
    have hidle : b.refill now = b := h.refilled.eq_of_due_lt hdue
    have htoken : 1 ≤ (b.refill now).tokens := by
      rw [hidle, htokens]
      exact Nat.one_le_cast.mpr (Nat.le_add_left 1 n)
    obtain ⟨hadmits, hspent⟩ := consume_of_one_le htoken
    rw [hidle] at hspent
    have hfewer : (b.ask now .consume).1.tokens = n := by
      rw [hspent, htokens]
      push_cast
      ring
    have hrest := ih (h.ask .consume) (by rw [hspent]; exact hdue) hfewer
    constructor
    · exact hrest.1.trans (by rw [hspent])
    · have hcount := hrest.2
      simp only [List.replicate_succ, answers, admissions, List.countP_cons, hadmits, le_refl, hnow,
        and_self, decide_true, Bool.and_self, if_true] at hcount ⊢
      rw [hcount]

theorem inOrder_replicate (n : Nat) (horder : InOrder now queries) :
    InOrder now (List.replicate n (now, query) ++ queries) := by
  induction n with
  | zero => exact horder
  | succ n ih => exact inOrder_cons.mpr ⟨le_refl now, ih⟩

/-- If less than a token is due, the clock accounts for one later. -/
theorem le_clock_add {k : Nat} (hinterval : b.limit.rate * k = 1) (hrate : 0 < b.limit.rate)
    (hdue : b.due now < 1) : now ≤ b.clock + k := by
  have hscaled : ((now : Rat) - b.clock) * b.limit.rate < k * b.limit.rate := by
    rw [mul_comm (k : Rat), hinterval]
    exact hdue
  have hless := lt_of_mul_lt_mul_right hscaled hrate.le
  have hlater : (now : Rat) < b.clock + k := by linarith
  exact_mod_cast hlater.le

/-- **A full bucket whose clock is behind** lets its capacity through at
once, and one request more as soon as its clock accounts for a token. -/
theorem Sound.one_more (h : Sound b now) (hdvd : b.limit.capacity ∣ b.limit.window)
    (hclock : (b.refill now).Behind now) :
    ∃ later last, InOrder now later ∧ now ≤ last ∧
      b.limit.capacity + (last - now) * b.limit.rate < admissions (b.answers later) now last := by
  obtain ⟨k, hk⟩ := hdvd
  have hinterval := rate_mul h.capacity_pos h.window_pos hk
  have hrate := rate_pos h.capacity_pos h.window_pos
  obtain ⟨hidle, hdue⟩ := h.refilled.eq_of_behind hclock
  rw [hidle] at hclock
  obtain ⟨hfull, hbehind⟩ := hclock
  have hlast := le_clock_add hinterval hrate hdue
  obtain ⟨hspent, hall⟩ := h.spend hdue hlast hfull
  have hempty : Sound { b with tokens := 0 } (b.clock + k) :=
    ⟨h.capacity_pos, h.window_pos, ⟨0, Nat.cast_zero.symm⟩, Nat.cast_nonneg _,
      h.clock_le.trans hlast⟩
  have htoken : 1 ≤ ({ b with tokens := 0 } : TokenBucket Rat).due (b.clock + k) := by
    simp only [due, Nat.cast_add, add_sub_cancel_left, mul_comm (k : Rat), hinterval, le_refl]
  obtain ⟨hadmits, -⟩ := consume_of_one_le (hempty.refilled.one_le_tokens hempty htoken)
  refine ⟨List.replicate b.limit.capacity (now, .consume) ++ [(b.clock + k, .consume)],
    b.clock + k, inOrder_replicate _ (inOrder_cons.mpr ⟨hlast, .nil _⟩), hlast, ?_⟩
  have hone : admissions (({ b with tokens := 0 } : TokenBucket Rat).answers
      [(b.clock + k, .consume)]) now (b.clock + k) = 1 := by
    simp [answers, admissions, hadmits, hlast]
  rw [answers_append, admissions_append, hspent, hall, hone]
  have hahead : (0 : Rat) < (now - b.clock) * b.limit.rate :=
    mul_pos (sub_pos.mpr (Nat.cast_lt.mpr hbehind)) hrate
  have hsplit : ((b.clock : Rat) + k - now) * b.limit.rate
      = b.limit.rate * k - (now - b.clock) * b.limit.rate := by ring
  push_cast
  rw [hsplit, hinterval]
  linarith

/-! ## The rate -/

/-- **The rate that a bucket lets through.** In every history of a bucket
and between any two instants, less than one request more passes than its
capacity and what falls due in between, but for what the rounding of the
clock is worth to each query. Where rounding does nothing, the request
more is due to one thing: the capacity and what falls due are the limit
from an instant on, whatever is asked then, exactly if the bucket is not
full at that instant with its clock left behind. -/
theorem rate_bound (limit : RateLimit) (hcapacity : 1 ≤ limit.capacity) (hwindow : 0 < limit.window)
    (start : Nat) (queries : List (Nat × Query)) (horder : InOrder start queries) :
    (∀ first last, first ≤ last →
      (admissions ((full limit start : TokenBucket Rat).answers queries) first last : Rat)
        < limit.capacity + 1 + (last - first) * limit.rate
          + queriesWithin queries first last * limit.slack) ∧
    (limit.capacity ∣ limit.window → ∀ now, start ≤ now → (∀ q ∈ queries, q.1 < now) →
      ((∀ later last, InOrder now later → now ≤ last →
        (admissions ((full limit start : TokenBucket Rat).answers (queries ++ later)) now last : Rat)
          ≤ limit.capacity + (last - now) * limit.rate) ↔
      ¬ (((full limit start).run queries).refill now).Behind now)) := by
  have hfull := sound_full hcapacity hwindow start
  refine ⟨fun first last hle => hfull.admissions_lt hle horder, fun hdvd now hstart hpast => ?_⟩
  obtain ⟨hnow, hlimit⟩ := hfull.run horder (fun q hq => (hpast q hq).le) hstart
  have hlimit' : ((full limit start : TokenBucket Rat).run queries).limit = limit := hlimit
  -- what was asked before does not count
  have hcount : ∀ later last, admissions ((full limit start : TokenBucket Rat).answers
      (queries ++ later)) now last = admissions
        (((full limit start : TokenBucket Rat).run queries).answers later) now last := by
    intro later last
    rw [answers_append, admissions_append, admissions_eq_zero _ fun q hq hin =>
      (hpast q hq).not_ge hin.1, Nat.zero_add]
  simp only [hcount]
  constructor
  · intro hbound hclock
    obtain ⟨later, last, hlater, hle, hmore⟩ := hnow.one_more (by rwa [hlimit']) hclock
    rw [hlimit'] at hmore
    exact hmore.not_ge (hbound later last hlater hle)
  · intro hclock later last hlater hle
    have hbound := hnow.admissions_le_capacity hclock hle hlater
    rw [hlimit', slack_eq_zero hdvd, mul_zero, add_zero] at hbound
    exact hbound

/-- One token in ten seconds. -/
def slowLimit : RateLimit := ⟨1, Duration.ofSecs 10⟩

/-- A request a millisecond before the first ten seconds are over, and one
when they are. -/
def lateQueries : List (Nat × Query) :=
  [(9999000000, .consume), (10000000000, .consume)]

theorem slow_bucket_lets_one_more_through :
    1 ≤ slowLimit.capacity ∧ 0 < slowLimit.window ∧ InOrder 0 lateQueries ∧
    (admissions ((full slowLimit 0 : TokenBucket Rat).answers lateQueries) 0 10000000000 : Rat)
      < slowLimit.capacity + 1 + ((10000000000 : Nat) - (0 : Nat)) * slowLimit.rate
        + queriesWithin lateQueries 0 10000000000 * slowLimit.slack ∧
    ¬ ∀ later last, InOrder 9999000000 later → 9999000000 ≤ last →
      (admissions ((full slowLimit 0 : TokenBucket Rat).answers ([] ++ later)) 9999000000 last : Rat)
        ≤ slowLimit.capacity + (last - (9999000000 : Nat)) * slowLimit.rate :=
  ⟨by decide, by decide, by decide,
    (rate_bound slowLimit (by decide) (by decide) 0 lateQueries (by decide)).1
      0 10000000000 (by decide),
    fun hall => ((rate_bound slowLimit (by decide) (by decide) 0 [] (by decide)).2 (by decide)
      9999000000 (by decide) (by simp)).mp hall ⟨by decide +kernel, by decide +kernel⟩⟩

/-- **The capacity and what falls due are not the limit**: a bucket of one
token in ten seconds lets two requests through in a millisecond. -/
theorem two_requests_in_a_millisecond :
    ¬ ∀ (limit : RateLimit) (start : Nat) (queries : List (Nat × Query)) (first last : Nat),
      1 ≤ limit.capacity → 0 < limit.window → InOrder start queries → first ≤ last →
      (admissions ((full limit start : TokenBucket Rat).answers queries) first last : Rat)
        ≤ limit.capacity + (last - first) * limit.rate := by
  intro hbound
  have hlate := hbound slowLimit 0 lateQueries 9999000000 10000000000 (by decide) (by decide)
    (by decide) (by decide)
  revert hlate
  decide +kernel

end TokenBucket

end CapabilityBroker
