import CapabilityBroker.Time.Scalar
/-!
# The token bucket

A limit on the rate of requests. The bucket holds tokens up to its
capacity; each request spends one, and the capacity is minted anew over a
window of time. Tokens are minted whole: when the bucket is looked at, the
tokens that the time since its clock accounts for are added, and the clock
moves on by the time of just those tokens, so that the rest of the time is
not lost. A full bucket sets its clock to the present.

The bucket is written over any arithmetic of times (`Scalar`).
-/

namespace CapabilityBroker

/-- How many tokens a bucket holds, which is also how many are minted
over a window of time. -/
structure RateLimit where
  capacity : Nat := 100
  window : Nat := Duration.ofSecs 60
  deriving DecidableEq, Repr

/-- A bucket: its limit, the tokens it holds, and the instant up to which
tokens have been minted. -/
structure TokenBucket (α : Type) where
  limit : RateLimit
  tokens : α
  clock : Nat

namespace TokenBucket

variable {α : Type} [Scalar α]

/-- A full bucket. -/
def full (limit : RateLimit) (now : Nat) : TokenBucket α :=
  ⟨limit, Scalar.ofNat limit.capacity, now⟩

/-- The tokens minted over a span of time: the part of the capacity that
the span is of the window, in whole tokens. -/
def minted (limit : RateLimit) (elapsed : Nat) : α :=
  Scalar.floor
    ((Scalar.seconds elapsed : α) / Scalar.seconds limit.window * Scalar.ofNat limit.capacity)

/-- The time that so many tokens account for. -/
def mintingTime (limit : RateLimit) (tokens : α) : Nat :=
  Scalar.span (tokens / Scalar.ofNat limit.capacity * Scalar.seconds limit.window)

/-- The bucket with the tokens added that are due. Without a window it is
always full. -/
def refill (b : TokenBucket α) (now : Nat) : TokenBucket α :=
  let capacity : α := Scalar.ofNat b.limit.capacity
  if b.limit.window = 0 then { b with tokens := capacity, clock := now }
  else
    let due : α := minted b.limit (now - b.clock)
    if Scalar.below due (Scalar.ofNat 1) then b
    else
      let tokens := Scalar.least (b.tokens + due) capacity
      if Scalar.atMost capacity tokens then { b with tokens, clock := now }
      else { b with tokens, clock := b.clock + mintingTime b.limit due }

/-- Whether a bucket holds a token. -/
def hasToken (b : TokenBucket α) : Bool := Scalar.atMost (Scalar.ofNat 1) b.tokens

/-- Spends a token if there is one, and tells whether there was. -/
def consume (b : TokenBucket α) (now : Nat) : TokenBucket α × Bool :=
  let b := b.refill now
  if b.hasToken then ({ b with tokens := b.tokens - Scalar.ofNat 1 }, true) else (b, false)

/-- The whole tokens there are. -/
def available (b : TokenBucket α) (now : Nat) : TokenBucket α × Nat :=
  let b := b.refill now
  (b, Scalar.wholePart b.tokens)

/-- The time one token takes, in whole nanoseconds. -/
def tokenInterval (limit : RateLimit) : Nat := limit.window / max limit.capacity 1

/-- The time until there is a token: none if there is one. -/
def timeUntilNext (b : TokenBucket α) (now : Nat) : TokenBucket α × Nat :=
  let b := b.refill now
  (b, if b.hasToken then 0 else b.clock + tokenInterval b.limit - now)

end TokenBucket

end CapabilityBroker
