import CapabilityBroker.Proofs.Bucket.Rate
/-!
# The level of a bucket

Whatever the capacity and the window, a bucket holds whole tokens and no
more than its capacity, and its clock is neither ahead of the time nor ever
set back (`Level`). A capacity or a window of nothing is no exception: such
a bucket never mints, or is full whenever it is looked at, and nothing is
ever divided by zero (`refill_dividing`).

A refill that mints and does not fill the bucket moves the clock on, if only
by a nanosecond, although the time of the tokens is rounded
(`one_le_mintingTime`). So at one instant there are no more such refills than
nanoseconds between the clock and the instant (`Level.mintings_le`).
-/

namespace CapabilityBroker

/-- The rationals with a division of their own. -/
abbrev Scalar.dividing (divide : Rat → Rat → Rat) : Scalar Rat :=
  { (inferInstance : Scalar Rat) with div := divide }

namespace TokenBucket

open RateLimit

variable {b : TokenBucket Rat} {limit : RateLimit} {query : Query} {queries : List (Nat × Query)}
variable {start now later elapsed m : Nat}

/-! ## Refills of every bucket -/

/-- **The clock does not stand still** while tokens are minted: those that
are due take at least half a nanosecond, and more than that if they take no
more than half of one each. -/
theorem one_le_mintingTime (hcapacity : 1 ≤ limit.capacity) (hwindow : 0 < limit.window)
    (hone : 1 ≤ m) (hdue : m ≤ elapsed * limit.rate) (hless : elapsed * limit.rate < m + 1) :
    1 ≤ mintingTime limit (m : Rat) := by
  by_contra hzero
  have hclock : mintingTime limit (m : Rat) = 0 := by omega
  have hlower := (mintingTime_bounds (m := m) hcapacity hwindow).1
  rw [hclock, Nat.cast_zero, zero_mul, zero_add] at hlower
  have hone' : (1 : Rat) ≤ m := Nat.one_le_cast.mpr hone
  -- some time has passed, so in a nanosecond fewer are due than in all
  have helapsed : 1 ≤ elapsed := by
    rcases Nat.eq_zero_or_pos elapsed with rfl | hpos
    · rw [Nat.cast_zero, zero_mul] at hdue
      linarith
    · exact hpos
  have hnanosecond : 1 * limit.rate ≤ elapsed * limit.rate :=
    mul_le_mul_of_nonneg_right (Nat.one_le_cast.mpr helapsed) rate_nonneg
  linarith

/-- Without a window a bucket is always full. -/
theorem refill_of_no_window (hwindow : b.limit.window = 0) :
    b.refill now = { b with tokens := b.limit.capacity, clock := now } :=
  if_pos hwindow

/-- Without a capacity nothing is ever due. -/
theorem minted_of_no_capacity (hcapacity : limit.capacity = 0) (hwindow : 0 < limit.window) :
    (minted limit elapsed : Rat) = 0 := by
  have hrate : limit.rate = 0 := by rw [rate, hcapacity, Nat.cast_zero, zero_div]
  rw [minted_eq hwindow, hrate, mul_zero, Nat.floor_zero, Nat.cast_zero]

theorem refill_of_no_capacity (hcapacity : b.limit.capacity = 0) (hwindow : 0 < b.limit.window) :
    b.refill now = b := by
  rw [refill_eq hwindow, minted_of_no_capacity hcapacity hwindow, if_pos zero_lt_one]

/-- **The level of a bucket**, looked at from `now`. -/
structure Level (b : TokenBucket Rat) (now : Nat) : Prop where
  tokens_whole : ∃ n : Nat, n ≤ b.limit.capacity ∧ b.tokens = n
  clock_le : b.clock ≤ now

namespace Level

theorem full (limit : RateLimit) (now : Nat) : Level (full limit now) now :=
  ⟨⟨limit.capacity, le_refl _, rfl⟩, le_refl now⟩

theorem mono (h : Level b now) (hle : now ≤ later) : Level b later :=
  ⟨h.tokens_whole, h.clock_le.trans hle⟩

theorem sound (h : Level b now) (hcapacity : 1 ≤ b.limit.capacity) (hwindow : 0 < b.limit.window) :
    Sound b now := by
  obtain ⟨n, hle, hn⟩ := h.tokens_whole
  exact ⟨hcapacity, hwindow, ⟨n, hn⟩, hn ▸ Nat.cast_le.mpr hle, h.clock_le⟩

/-- **What a refill does to any bucket**: nothing, or it fills it and sets
its clock to the present, or it leaves it below its capacity and moves its
clock on, but not ahead. -/
theorem refill_cases (h : Level b now) :
    b.refill now = b ∨ b.refill now = { b with tokens := b.limit.capacity, clock := now } ∨
    ∃ m moved : Nat, 1 ≤ m ∧ 1 ≤ moved ∧ b.clock + moved ≤ now ∧ b.tokens + m < b.limit.capacity ∧
      b.refill now = { b with tokens := b.tokens + m, clock := b.clock + moved } := by
  rcases Nat.eq_zero_or_pos b.limit.window with hwindow | hwindow
  · exact .inr (.inl (refill_of_no_window hwindow))
  rcases Nat.eq_zero_or_pos b.limit.capacity with hcapacity | hcapacity
  · exact .inl (refill_of_no_capacity hcapacity hwindow)
  have hsound : Sound b now := h.sound hcapacity hwindow
  have hrefilled := hsound.refilled
  generalize b.refill now = d at hrefilled ⊢
  cases hrefilled with
  | idle _ => exact .inl rfl
  | filled _ _ _ _ => exact .inr (.inl rfl)
  | minting m hone hdue hless hfew =>
    rw [hsound.due_eq] at hdue hless
    have hmoved : 1 ≤ mintingTime b.limit (m : Rat) :=
      one_le_mintingTime hcapacity hwindow hone hdue hless
    have hbehind : mintingTime b.limit (m : Rat) ≤ now - b.clock :=
      mintingTime_le hcapacity hwindow hdue
    have hclock := h.clock_le
    exact .inr (.inr ⟨m, mintingTime b.limit (m : Rat), hone, hmoved, by omega, hfew, rfl⟩)

theorem limit_refill (h : Level b now) : (b.refill now).limit = b.limit := by
  rcases h.refill_cases with heq | heq | ⟨m, moved, -, -, -, -, heq⟩ <;> rw [heq]

/-- **The clock is not set back**, and not moved ahead of the time. -/
theorem clock_refill (h : Level b now) :
    b.clock ≤ (b.refill now).clock ∧ (b.refill now).clock ≤ now := by
  have hclock := h.clock_le
  rcases h.refill_cases with heq | heq | ⟨m, moved, -, -, hbehind, -, heq⟩ <;> rw [heq]
  · exact ⟨le_refl _, hclock⟩
  · exact ⟨hclock, le_refl _⟩
  · exact ⟨Nat.le_add_right _ _, hbehind⟩

theorem refill (h : Level b now) : Level (b.refill now) now := by
  refine ⟨?_, h.clock_refill.2⟩
  obtain ⟨n, hle, hn⟩ := h.tokens_whole
  rcases h.refill_cases with heq | heq | ⟨m, moved, -, -, -, hfew, heq⟩ <;> rw [heq]
  · exact ⟨n, hle, hn⟩
  · exact ⟨b.limit.capacity, le_refl _, rfl⟩
  · rw [hn] at hfew
    have hless : n + m < b.limit.capacity := by exact_mod_cast hfew
    exact ⟨n + m, hless.le, by rw [Nat.cast_add, hn]⟩

/-- **Who mints and does not fill the bucket moves its clock on.** -/
theorem clock_lt_of_minting (h : Level b now) (hmore : b.tokens < (b.refill now).tokens)
    (hfew : (b.refill now).tokens < b.limit.capacity) : b.clock < (b.refill now).clock := by
  rcases h.refill_cases with heq | heq | ⟨m, moved, -, hmoved, -, -, heq⟩
  · rw [heq] at hmore
    exact absurd hmore (lt_irrefl _)
  · rw [heq] at hfew
    exact absurd hfew (lt_irrefl _)
  · rw [heq]
    simp only
    omega

end Level

/-! ## Queries -/

/-- A query moves the clock as a refill does. -/
theorem clock_ask (b : TokenBucket Rat) (now : Nat) (query : Query) :
    (b.ask now query).1.clock = (b.refill now).clock := by
  rcases ask_cases b now query with ⟨heq, -⟩ | ⟨-, -, heq⟩ <;> rw [heq]

theorem limit_ask (b : TokenBucket Rat) (now : Nat) (query : Query) :
    (b.ask now query).1.limit = (b.refill now).limit := by
  rcases ask_cases b now query with ⟨heq, -⟩ | ⟨-, -, heq⟩ <;> rw [heq]

theorem ask_read {α : Type} [Scalar α] {b : TokenBucket α} {query : Query}
    (hread : query ≠ .consume) : (b.ask now query).1 = b.refill now := by
  cases query with
  | consume => exact absurd rfl hread
  | available => rfl
  | timeUntilNext => rfl

/-- A request passes if there is a token when the bucket is refilled. -/
theorem consume_snd {α : Type} [Scalar α] (b : TokenBucket α) (now : Nat) :
    (b.consume now).2 = (b.refill now).hasToken := by
  rw [consume]
  cases (b.refill now).hasToken <;> rfl

/-- **A request leaves what a read leaves**, or one token less. -/
theorem consume_cases (b : TokenBucket Rat) (now : Nat) :
    ((b.refill now).tokens < 1 ∧ b.ask now .consume = (b.refill now, .consumed false)) ∨
    (1 ≤ (b.refill now).tokens ∧ b.ask now .consume =
      ({ b.refill now with tokens := (b.refill now).tokens - 1 }, .consumed true)) := by
  by_cases htoken : 1 ≤ (b.refill now).tokens
  · have hhas : (b.refill now).hasToken = true := decide_eq_true htoken
    refine .inr ⟨htoken, ?_⟩
    simp only [ask, consume, hhas, if_true]
    rfl
  · have hhas : (b.refill now).hasToken = false := decide_eq_false htoken
    refine .inl ⟨not_le.mp htoken, ?_⟩
    simp only [ask, consume, hhas, Bool.false_eq_true, if_false]

namespace Level

theorem ask (h : Level b now) (query : Query) : Level (b.ask now query).1 now := by
  obtain ⟨⟨n, hle, hn⟩, hclock⟩ := h.refill
  rcases ask_cases b now query with ⟨heq, -⟩ | ⟨htoken, -, heq⟩ <;> rw [heq]
  · exact h.refill
  · rw [hn] at htoken
    refine ⟨⟨n - 1, (Nat.sub_le n 1).trans hle, ?_⟩, hclock⟩
    rw [Nat.cast_sub (Nat.one_le_cast.mp htoken), hn, Nat.cast_one]

theorem clock_le_ask (h : Level b now) (query : Query) :
    b.clock ≤ (b.ask now query).1.clock ∧ (b.ask now query).1.clock ≤ now := by
  rw [clock_ask]
  exact h.clock_refill

/-- **Every history keeps the level**, and sets no clock back. -/
theorem run (h : Level b now) (horder : InOrder now queries) (hpast : ∀ q ∈ queries, q.1 ≤ later)
    (hnow : now ≤ later) :
    Level (b.run queries) later ∧ b.clock ≤ (b.run queries).clock ∧
      (b.run queries).limit = b.limit := by
  induction queries generalizing b now with
  | nil => exact ⟨h.mono hnow, le_refl _, rfl⟩
  | cons q queries ih =>
    obtain ⟨hle, horder⟩ := inOrder_cons.mp horder
    have hq : Level b q.1 := h.mono hle
    obtain ⟨hlevel, hclock, hlimit⟩ := ih (hq.ask q.2) horder
      (fun r hr => hpast r (List.mem_cons_of_mem _ hr)) (hpast q List.mem_cons_self)
    refine ⟨hlevel, (hq.clock_le_ask q.2).1.trans hclock, hlimit.trans ?_⟩
    rw [limit_ask, hq.limit_refill]

end Level

/-! ## One instant -/

/-- How many of the queries asked at one instant find that there is
something to mint that does not fill the bucket. -/
def mintings (b : TokenBucket Rat) (now : Nat) : List Query → Nat
  | [] => 0
  | query :: asked =>
    (if b.tokens < (b.refill now).tokens ∧ (b.refill now).tokens < b.limit.capacity then 1 else 0)
      + (b.ask now query).1.mintings now asked

/-- **A clock that stands still mints no more**: each such refill brings it
nearer to the instant. -/
theorem Level.mintings_le (h : Level b now) (asked : List Query) :
    b.mintings now asked ≤ now - b.clock := by
  induction asked generalizing b with
  | nil => exact Nat.zero_le _
  | cons query asked ih =>
    have hrest : (b.ask now query).1.mintings now asked ≤ now - (b.ask now query).1.clock :=
      ih (h.ask query)
    rw [clock_ask] at hrest
    obtain ⟨hback, hahead⟩ := h.clock_refill
    simp only [mintings]
    split
    · next hmints =>
      have hmoved := h.clock_lt_of_minting hmints.1 hmints.2
      omega
    · omega

/-! ## Divisions -/

section Dividing

variable {divide : Rat → Rat → Rat} (hdivide : ∀ x y, y ≠ 0 → divide x y = x / y)
include hdivide

theorem minted_dividing (hwindow : limit.window ≠ 0) (elapsed : Nat) :
    @minted Rat (Scalar.dividing divide) limit elapsed = minted limit elapsed := by
  have hseconds : (limit.window : Rat) / Duration.second ≠ 0 :=
    div_ne_zero (Nat.cast_ne_zero.mpr hwindow) (by norm_num [Duration.second])
  have hquotient := hdivide ((elapsed : Rat) / Duration.second) _ hseconds
  exact congrArg (fun x : Rat => ((x * limit.capacity).floor : Rat)) hquotient

theorem mintingTime_dividing (hcapacity : limit.capacity ≠ 0) (tokens : Rat) :
    @mintingTime Rat (Scalar.dividing divide) limit tokens = mintingTime limit tokens := by
  have hquotient := hdivide tokens limit.capacity (Nat.cast_ne_zero.mpr hcapacity)
  exact congrArg (fun x : Rat => Scalar.span (x * Scalar.seconds limit.window)) hquotient

/-- **Nothing is divided by zero**: a refill does not depend on what that
would give. -/
theorem refill_dividing (b : TokenBucket Rat) (now : Nat) :
    @refill Rat (Scalar.dividing divide) b now = b.refill now := by
  by_cases hwindow : b.limit.window = 0
  · unfold refill
    rw [if_pos hwindow, if_pos hwindow]
    rfl
  · have hdue := minted_dividing hdivide hwindow (now - b.clock)
    unfold refill
    simp only [if_neg hwindow, hdue]
    by_cases hcapacity : b.limit.capacity = 0
    · have hnone : decide ((0 : Rat) < (1 : Nat)) = true := by norm_num
      rw [minted_of_no_capacity hcapacity (Nat.pos_of_ne_zero hwindow)]
      exact (if_pos hnone).trans (if_pos hnone).symm
    · simp only [mintingTime_dividing hdivide hcapacity]
      rfl

theorem ask_dividing (b : TokenBucket Rat) (now : Nat) (query : Query) :
    @ask Rat (Scalar.dividing divide) b now query = b.ask now query := by
  cases query with
  | consume =>
    unfold ask consume
    simp only [refill_dividing hdivide]
    rfl
  | available =>
    unfold ask available
    simp only [refill_dividing hdivide]
    rfl
  | timeUntilNext =>
    unfold ask timeUntilNext
    simp only [refill_dividing hdivide]
    rfl

theorem run_dividing (b : TokenBucket Rat) (queries : List (Nat × Query)) :
    @run Rat (Scalar.dividing divide) b queries = b.run queries := by
  unfold run
  simp only [ask_dividing hdivide]

theorem answers_dividing (b : TokenBucket Rat) (queries : List (Nat × Query)) :
    @answers Rat (Scalar.dividing divide) b queries = b.answers queries := by
  induction queries generalizing b with
  | nil => rfl
  | cons q queries ih =>
    unfold answers
    rw [ask_dividing hdivide, ih]

end Dividing

/-! ## All histories -/

/-- **How a bucket is kept** that was started at one instant and is looked
at from another. -/
structure Kept (b : TokenBucket Rat) (start now : Nat) : Prop where
  /-- It holds whole tokens, from none to its capacity. -/
  tokens_whole : ∃ n : Nat, n ≤ b.limit.capacity ∧ b.tokens = n
  /-- Its clock lies between the start and the present, -/
  clock_between : start ≤ b.clock ∧ b.clock ≤ now
  /-- and whatever is asked, it is not set back and not moved ahead. -/
  clock_ask : ∀ query, b.clock ≤ (b.ask now query).1.clock ∧ (b.ask now query).1.clock ≤ now
  /-- The reads leave the same. -/
  read_eq : (b.ask now .timeUntilNext).1 = (b.ask now .available).1
  /-- A request that is refused leaves what they leave, and one that passes
  leaves a token less. -/
  consume_eq :
    b.ask now .consume = ((b.ask now .available).1, .consumed false) ∨
    1 ≤ (b.ask now .available).1.tokens ∧
      b.ask now .consume =
        ({ (b.ask now .available).1 with tokens := (b.ask now .available).1.tokens - 1 },
          .consumed true)
  /-- If tokens are minted and the bucket is not full then, its clock has
  moved on, -/
  clock_lt_of_minting : b.tokens < (b.refill now).tokens →
    (b.refill now).tokens < b.limit.capacity → b.clock + 1 ≤ (b.refill now).clock
  /-- so that at one instant this comes to an end, however much is asked. -/
  mintings_le : ∀ asked, b.mintings now asked ≤ now - b.clock

theorem Level.kept (h : Level b now) (hstart : start ≤ b.clock) : Kept b start now where
  tokens_whole := h.tokens_whole
  clock_between := ⟨hstart, h.clock_le⟩
  clock_ask := h.clock_le_ask
  read_eq := rfl
  consume_eq := by
    rcases consume_cases b now with ⟨-, heq⟩ | ⟨htoken, heq⟩
    · exact .inl heq
    · exact .inr ⟨htoken, heq⟩
  clock_lt_of_minting hmore hfew := h.clock_lt_of_minting hmore hfew
  mintings_le := h.mintings_le

/-- **Every bucket is kept so in every history**, whatever its capacity and
its window are, and every query of the history finds it so. It is never
divided by zero: no state and no answer depends on what that would give, and
the divisor of a token's time is not zero either. -/
theorem kept_in_every_history (limit : RateLimit) (start now : Nat) (queries : List (Nat × Query))
    (horder : InOrder start queries) (hstart : start ≤ now) (hpast : ∀ q ∈ queries, q.1 ≤ now) :
    Kept ((full limit start : TokenBucket Rat).run queries) start now ∧
    (∀ divide : Rat → Rat → Rat, (∀ x y, y ≠ 0 → divide x y = x / y) →
      @run Rat (Scalar.dividing divide) (full limit start) queries
        = (full limit start : TokenBucket Rat).run queries ∧
      @answers Rat (Scalar.dividing divide) (full limit start) queries
        = (full limit start : TokenBucket Rat).answers queries) ∧
    max limit.capacity 1 ≠ 0 := by
  obtain ⟨hlevel, hclock, -⟩ := (Level.full limit start).run horder hpast hstart
  refine ⟨hlevel.kept hclock, fun divide hdivide => ⟨?_, ?_⟩, by omega⟩
  · exact run_dividing hdivide _ queries
  · exact answers_dividing hdivide _ queries

/-- Seven tokens in a second. -/
def sevenLimit : RateLimit := ⟨7, Duration.ofSecs 1⟩

/-- All seven are asked for at once. -/
def sevenAtOnce : List (Nat × Query) := List.replicate 7 (0, .consume)

/-- A nanosecond before the last seventh of the second, five tokens are
minted, and the clock moves on by their time. It is rounded down, so one more
is due at once. -/
theorem drained_bucket_kept :
    InOrder 0 sevenAtOnce ∧ 0 ≤ 857142857 ∧ (∀ q ∈ sevenAtOnce, q.1 ≤ 857142857) ∧
    Kept ((full sevenLimit 0 : TokenBucket Rat).run sevenAtOnce) 0 857142857 ∧
    ((full sevenLimit 0 : TokenBucket Rat).run sevenAtOnce).answers
      [(857142857, .available), (857142857, .available)]
        = [(857142857, .available 5), (857142857, .available 6)] := by
  refine ⟨by decide, by decide, by decide, ?_, by decide +kernel⟩
  exact (kept_in_every_history sevenLimit 0 857142857 sevenAtOnce (by decide) (by decide)
    (by decide)).1

end TokenBucket

end CapabilityBroker
