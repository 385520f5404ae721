import Mathlib.Algebra.Order.Field.Basic
import Mathlib.Tactic.Linarith
import Mathlib.Tactic.Ring

/-!
# Token buckets

A bucket holds at most `burst` tokens and is refilled at a constant rate.  A
request is admitted when a whole token is there, and takes it.  Over any window
of time a bucket admits at most what it holds and what is refilled meanwhile; in a
table of buckets, the requests of one key see nothing of the others.
-/

namespace TokenBucket

variable {K : Type} [Field K] [LinearOrder K]

structure Policy (K : Type) [Field K] [LinearOrder K] where
  burst : K
  rate : K
  burst_nonneg : 0 ≤ burst
  rate_nonneg : 0 ≤ rate

/-- There were `level` tokens at the time `asOf`. -/
structure Bucket (K : Type) where
  level : K
  asOf : K

variable (P : Policy K)

/-- The tokens at a later time, when none is taken until then. -/
def Bucket.levelAt (b : Bucket K) (now : K) : K := min P.burst (b.level + (now - b.asOf) * P.rate)

/-- One request: whether it is admitted, and the bucket afterwards. -/
def Bucket.offer (b : Bucket K) (now : K) : Bool × Bucket K :=
  if b.levelAt P now < 1 then (false, ⟨b.levelAt P now, now⟩)
  else (true, ⟨b.levelAt P now - 1, now⟩)

def full : Bucket K := ⟨P.burst, 0⟩

/-- The decisions on requests at these times. -/
def decisions : List K → Bucket K → List Bool
  | [], _ => []
  | now :: times, b => (b.offer P now).1 :: decisions times (b.offer P now).2

variable {P}

/-- A request sees nothing of a bucket but its level. -/
theorem Bucket.offer_congr {b b' : Bucket K} {now : K} (h : b.levelAt P now = b'.levelAt P now) :
    b.offer P now = b'.offer P now := by
  simp only [Bucket.offer, h]

theorem Bucket.levelAt_le (b : Bucket K) (now : K) : b.levelAt P now ≤ P.burst := min_le_left ..

@[simp] theorem Bucket.offer_asOf (b : Bucket K) (now : K) : (b.offer P now).2.asOf = now := by
  unfold Bucket.offer
  split <;> rfl

/-- The level where a bucket stands. -/
theorem Bucket.levelAt_asOf {b : Bucket K} (h : b.level ≤ P.burst) : b.levelAt P b.asOf = b.level := by
  rw [Bucket.levelAt, sub_self, zero_mul, add_zero]
  exact min_eq_right h

/-- What an offer leaves behind. -/
theorem Bucket.offer_level (b : Bucket K) (now : K) :
    (b.offer P now).2.level + (if (b.offer P now).1 then 1 else 0) = b.levelAt P now := by
  unfold Bucket.offer
  split <;> simp

section Ordered

variable [IsStrictOrderedRing K]

theorem Bucket.levelAt_nonneg {b : Bucket K} {now : K} (h : 0 ≤ b.level) (hnow : b.asOf ≤ now) :
    0 ≤ b.levelAt P now := by
  apply le_min P.burst_nonneg
  exact add_nonneg h (mul_nonneg (sub_nonneg.mpr hnow) P.rate_nonneg)

theorem full_levelAt {now : K} (h : 0 ≤ now) : (full P).levelAt P now = P.burst := by
  apply min_eq_left
  show P.burst ≤ P.burst + (now - 0) * P.rate
  have := mul_nonneg (sub_nonneg.mpr h) P.rate_nonneg
  linarith

/-- No more comes in than the rate allows. -/
theorem Bucket.levelAt_later (b : Bucket K) {now later : K} (h : now ≤ later) :
    b.levelAt P later ≤ b.levelAt P now + (later - now) * P.rate := by
  have hgain := mul_nonneg (sub_nonneg.mpr h) P.rate_nonneg
  have hsplit : b.level + (later - b.asOf) * P.rate =
      b.level + (now - b.asOf) * P.rate + (later - now) * P.rate := by ring
  rw [Bucket.levelAt, Bucket.levelAt, min_add, hsplit]
  exact min_le_min_right _ (by linarith)

theorem Bucket.offer_bounds {b : Bucket K} {now : K} (h : 0 ≤ b.level) (hnow : b.asOf ≤ now) :
    0 ≤ (b.offer P now).2.level ∧ (b.offer P now).2.level ≤ P.burst := by
  have hle := b.levelAt_le (P := P) now
  have hnonneg := b.levelAt_nonneg (P := P) h hnow
  unfold Bucket.offer
  split
  · exact ⟨hnonneg, hle⟩
  · rename_i hone
    dsimp only
    constructor <;> linarith

/-- **Rate bound.**  What a bucket admits between `start` and `stop` is at most what it held
at the start and what was refilled meanwhile. -/
theorem admitted_le {times : List K} {b : Bucket K} {start stop : K} (hlevel : 0 ≤ b.level)
    (hasOf : b.asOf ≤ start) (hle : start ≤ stop) (hsorted : times.Pairwise (· ≤ ·))
    (hfrom : ∀ t ∈ times, start ≤ t) (hto : ∀ t ∈ times, t ≤ stop) :
    ((decisions P times b).count true : K) ≤ b.levelAt P start + (stop - start) * P.rate := by
  induction times generalizing b start with
  | nil =>
    have hnonneg := b.levelAt_nonneg (P := P) hlevel hasOf
    have hgain := mul_nonneg (sub_nonneg.mpr hle) P.rate_nonneg
    simp only [decisions, List.count_nil, Nat.cast_zero]
    linarith
  | cons t times ih =>
    obtain ⟨hlater, hsorted⟩ := List.pairwise_cons.mp hsorted
    have hstart := hfrom t List.mem_cons_self
    have hstop := hto t List.mem_cons_self
    have hbounds := Bucket.offer_bounds (P := P) hlevel (hasOf.trans hstart)
    have hrest := ih (b := (b.offer P t).2) hbounds.1 (by simp) hstop hsorted hlater
      fun t' ht' => hto t' (List.mem_cons_of_mem _ ht')
    have hnow : (b.offer P t).2.levelAt P t = (b.offer P t).2.level := by
      have := Bucket.levelAt_asOf hbounds.2
      rwa [Bucket.offer_asOf] at this
    have hoffer := b.offer_level (P := P) t
    have hgain := b.levelAt_later (P := P) hstart
    have hcount : ((decisions P (t :: times) b).count true : K) =
        (decisions P times (b.offer P t).2).count true + (if (b.offer P t).1 then 1 else 0) := by
      rw [decisions]
      cases (b.offer P t).1 <;> simp
    have hsplit : (stop - start) * P.rate = (t - start) * P.rate + (stop - t) * P.rate := by ring
    rw [hcount, hsplit]
    rw [hnow] at hrest
    linarith

end Ordered

/-! ## Tables of buckets -/

variable {Key : Type} [DecidableEq Key]

variable (P) in
/-- The answers of a table that keeps a bucket for every key, to requests with their times. -/
def answers : List (Key × K) → (Key → Bucket K) → List Bool
  | [], _ => []
  | (key, now) :: requests, table =>
    ((table key).offer P now).1 ::
      answers requests (Function.update table key ((table key).offer P now).2)

/-- The times of the requests of one key. -/
def timesOf (key : Key) (requests : List (Key × K)) : List K :=
  (requests.filter (·.1 = key)).map (·.2)

/-- Those of the answers that were given to requests of one key. -/
def answersTo {A : Type} (key : Key) (requests : List (Key × A)) (answers : List Bool) : List Bool :=
  ((requests.zip answers).filter (·.1.1 = key)).map (·.2)

/-- **Independence.**  The requests of one key are answered by its bucket alone. -/
theorem answersTo_answers (key : Key) (requests : List (Key × K)) (table : Key → Bucket K) :
    answersTo key requests (answers P requests table) =
      decisions P (timesOf key requests) (table key) := by
  induction requests generalizing table with
  | nil => rfl
  | cons request requests ih =>
    obtain ⟨key', now⟩ := request
    have ih := ih (Function.update table key' ((table key').offer P now).2)
    by_cases h : key' = key
    · subst h
      rw [Function.update_self] at ih
      simpa [answersTo, timesOf, answers, decisions] using ih
    · rw [Function.update_of_ne (Ne.symm h)] at ih
      simpa [answersTo, timesOf, answers, h] using ih

end TokenBucket
