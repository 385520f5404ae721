import Mathlib.Algebra.Order.Field.Rat
import Mathlib.Data.List.TakeWhile
import WebServer.Lib.TokenBucket
import WebServer.Refine.RateTable

/-!
# The table stands for a bucket per IP

The ideal table of `Lib/TokenBucket.lean` never forgets a key.  The one of the
server drops a bucket that it has not seen for ten minutes; by then the bucket is full
again, and so is the one the server would create.
-/

namespace WebServer.Refine

open WebServer.Net WebServer.Core WeakestPre TokenBucket

variable {now later : Time} {ip ip' : Bytes} {bucket : IpTokenBucketEntry} {buckets : Buckets}
  {s s' : Server} {a : Arrival}

/-- 200 tokens, refilled at 50 per second. -/
def ipPolicy : Policy ℚ where
  burst := kIpBucketBurst
  rate := kIpBucketRefillPerSecond
  burst_nonneg := by decide
  rate_nonneg := by decide

def toSeconds (t : Time) : ℚ := (t : ℚ) / 1000000000

def entryBucket (bucket : IpTokenBucketEntry) : Bucket ℚ := ⟨bucket.tokens, toSeconds bucket.lastRefill⟩

/-- The ideal bucket of an IP; one that the table does not have is full. -/
def bucketOf (buckets : Buckets) (ip : Bytes) : Bucket ℚ :=
  match buckets.lookup ip with
  | none => full ipPolicy
  | some bucket => entryBucket bucket

/-- The three fields of the server that make up the table. -/
abbrev TableOf (now : Time) (s : Server) : Prop :=
  RateTable now s.ipBucketLru s.nextLruAddress s.ipTokenBuckets

/-! ## Refill and expiry -/

theorem toSeconds_nonneg (t : Time) : 0 ≤ toSeconds t := by
  unfold toSeconds
  positivity

theorem toSeconds_mono (h : now ≤ later) : toSeconds now ≤ toSeconds later := by
  unfold toSeconds
  have : (now : ℚ) ≤ later := by exact_mod_cast h
  linarith

theorem toSeconds_sub (h : now ≤ later) :
    ((later - now : Nat) : ℚ) / 1000000000 = toSeconds later - toSeconds now := by
  rw [Nat.cast_sub h]
  unfold toSeconds
  ring

/-- `RefillIpBucket` computes the level of the bucket. -/
theorem refillIpBucket_eq (hpast : bucket.lastRefill ≤ now) (htokens : bucket.tokens ≤ kIpBucketBurst) :
    refillIpBucket now bucket = { bucket with
      tokens := (entryBucket bucket).levelAt ipPolicy (toSeconds now), lastRefill := now } := by
  unfold refillIpBucket
  split
  · rename_i hle
    have hnow : bucket.lastRefill = now := Nat.le_antisymm hpast hle
    have hlevel : (entryBucket bucket).levelAt ipPolicy (toSeconds now) = bucket.tokens := by
      rw [← hnow]
      exact Bucket.levelAt_asOf (b := entryBucket bucket) htokens
    rw [hlevel, ← hnow]
  · dsimp only
    rw [toSeconds_sub hpast]
    rfl

/-- **Forgetting is unobservable.**  A bucket that has expired is full. -/
theorem levelAt_of_expired (h : Expired now bucket) (htokens : 0 ≤ bucket.tokens)
    (hrefilled : bucket.lastRefill = bucket.lastSeen) (hle : now ≤ later) :
    (entryBucket bucket).levelAt ipPolicy (toSeconds later) =
      (full ipPolicy).levelAt ipPolicy (toSeconds later) := by
  rw [full_levelAt (toSeconds_nonneg later)]
  apply min_eq_left
  have hgap : bucket.lastRefill + kIpBucketTtl ≤ later := by
    rw [hrefilled, Nat.add_comm]
    exact (Nat.lt_sub_iff_add_lt.mp h).le.trans hle
  have hseconds : toSeconds bucket.lastRefill + 600 ≤ toSeconds later := by
    refine le_trans (le_of_eq ?_) (toSeconds_mono hgap)
    simp only [toSeconds, kIpBucketTtl, seconds, Nat.cast_add, Nat.cast_mul]
    norm_num
    ring
  show (200 : ℚ) ≤ bucket.tokens + (toSeconds later - toSeconds bucket.lastRefill) * 50
  linarith

/-- No request can tell whether the expired buckets have been dropped. -/
theorem levelAt_cleanup (h : TableOf now s) (ip : Bytes) {at' : Time} (hat : at' ≤ later) :
    (bucketOf (cleanupExpiredIpBuckets at' s).ipTokenBuckets ip).levelAt ipPolicy (toSeconds later) =
      (bucketOf s.ipTokenBuckets ip).levelAt ipPolicy (toSeconds later) := by
  obtain ⟨-, hexact⟩ := cleanupLoop_spec h at'
  have hexact : ∀ bucket, (cleanupExpiredIpBuckets at' s).ipTokenBuckets.lookup ip = some bucket ↔
      s.ipTokenBuckets.lookup ip = some bucket ∧ ¬ Expired at' bucket := hexact ip
  generalize (cleanupExpiredIpBuckets at' s).ipTokenBuckets = cleaned at hexact
  unfold bucketOf
  cases hb : s.ipTokenBuckets.lookup ip with
  | none =>
    have hnone : cleaned.lookup ip = none := by
      rw [Option.eq_none_iff_forall_ne_some]
      intro bucket hc
      have := ((hexact bucket).mp hc).1
      rw [hb] at this
      cases this
    rw [hnone]
  | some bucket =>
    by_cases hexp : Expired at' bucket
    · have hnone : cleaned.lookup ip = none := by
        rw [Option.eq_none_iff_forall_ne_some]
        intro bucket' hc
        obtain ⟨hb', hlive⟩ := (hexact bucket').mp hc
        rw [hb] at hb'
        cases hb'
        exact hlive hexp
      rw [hnone]
      exact (levelAt_of_expired hexp (h.tokens ip bucket hb).1 (h.refilled ip bucket hb) hat).symm
    · rw [(hexact bucket).mpr ⟨hb, hexp⟩]

/-! ## One call -/

/-- In this call the capacity limit takes the bucket of `ip` away. -/
def EvictsBucket (a : Arrival) (ip : Bytes) (s : Server) : Prop :=
  ip ∈ (cleanupExpiredIpBuckets a.now s).ipTokenBuckets ∧
    ip ∉ (findOrCreateIpBucket a.ip a.now (cleanupExpiredIpBuckets a.now s)).ipTokenBuckets

/-- The table before a token is taken. -/
structure Found (now : Time) (ip : Bytes) (s t : Server) (bucket : IpTokenBucketEntry) : Prop where
  table : TableOf now t
  found : t.ipTokenBuckets.lookup ip = some bucket
  refill : bucket.lastRefill = now
  level : bucket.tokens = (bucketOf s.ipTokenBuckets ip).levelAt ipPolicy (toSeconds now)
  others : ∀ ip', ip' ≠ ip → (ip' ∈ s.ipTokenBuckets → ip' ∈ t.ipTokenBuckets) →
    t.ipTokenBuckets.lookup ip' = s.ipTokenBuckets.lookup ip'

/-- `TouchIpBucket` on a bucket that has been refilled. -/
theorem found_touch (h : TableOf now s) (hb : s.ipTokenBuckets.lookup ip = some bucket) :
    ∃ bucket', Found now ip s (touchIpBucket ip (refillIpBucket now bucket) now s) bucket' := by
  have hlevel : bucketOf s.ipTokenBuckets ip = entryBucket bucket := by rw [bucketOf, hb]
  have hrefilled := h.refilled ip bucket hb
  have htokens := h.tokens ip bucket hb
  have hpast : bucket.lastRefill ≤ now := hrefilled.le.trans (h.past ip bucket hb)
  have hroom : (s.ipTokenBuckets.erase ip).keys.card < kIpBucketMaxEntries := by
    have hcard := Finset.card_erase_add_one (Finmap.mem_keys.mpr (Finmap.mem_of_lookup_eq_some hb))
    have hsize := h.size
    rw [Finmap.keys_erase]
    omega
  have hbounds : 0 ≤ (entryBucket bucket).levelAt ipPolicy (toSeconds now) ∧
      (entryBucket bucket).levelAt ipPolicy (toSeconds now) ≤ kIpBucketBurst :=
    ⟨Bucket.levelAt_nonneg htokens.1 (toSeconds_mono hpast), Bucket.levelAt_le _ _⟩
  rw [refillIpBucket_eq hpast htokens.2]
  have hinsert (b : IpTokenBucketEntry) :
      (s.ipTokenBuckets.erase ip).insert ip b = s.ipTokenBuckets.insert ip b := by
    apply Finmap.ext_lookup
    intro x
    by_cases hx : x = ip
    · subst hx
      rw [Finmap.lookup_insert, Finmap.lookup_insert]
    · rw [Finmap.lookup_insert_of_ne _ hx, Finmap.lookup_insert_of_ne _ hx, Finmap.lookup_erase_ne hx]
  refine ⟨_, ?_, Finmap.lookup_insert .., rfl, by rw [hlevel], fun ip' hne _ => ?_⟩
  · let touched : IpTokenBucketEntry :=
      ⟨(entryBucket bucket).levelAt ipPolicy (toSeconds now), now, now, s.nextLruAddress⟩
    have hpush : RateTable now _ _ ((s.ipTokenBuckets.erase ip).insert ip touched) :=
      (h.remove hb).push Finmap.notMem_erase_self hroom rfl rfl rfl hbounds
    rwa [hinsert] at hpush
  · exact Finmap.lookup_insert_of_ne _ hne

/-- A new bucket, for which another may have to go. -/
theorem found_create (h : TableOf now s) (hb : s.ipTokenBuckets.lookup ip = none) :
    ∃ bucket', Found now ip s (findOrCreateIpBucket ip now s) bucket' := by
  have hlevel : (bucketOf s.ipTokenBuckets ip).levelAt ipPolicy (toSeconds now) = kIpBucketBurst := by
    rw [bucketOf, hb]
    exact full_levelAt (toSeconds_nonneg now)
  have hnew : ip ∉ s.ipTokenBuckets := Finmap.lookup_eq_none.mp hb
  -- the table with room for one more
  obtain ⟨lru, buckets, hevict, htable, hroom, hsub⟩ : ∃ lru buckets,
      evictLoop s.ipBucketLru s.ipTokenBuckets = (lru, buckets) ∧
      RateTable now lru s.nextLruAddress buckets ∧ buckets.keys.card < kIpBucketMaxEntries ∧
      ∀ ip', ip' ∈ buckets → ip' ∈ s.ipTokenBuckets ∧
        buckets.lookup ip' = s.ipTokenBuckets.lookup ip' := by
    rcases evictLoop_spec h with ⟨hroom, e⟩ | ⟨node, rest, hlru, e, hroom⟩
    · exact ⟨_, _, e, h, hroom, fun _ hmem => ⟨hmem, rfl⟩⟩
    · refine ⟨_, _, e, ?_, hroom, fun ip' hmem => ?_⟩
      · have h : RateTable now s.ipBucketLru s.nextLruAddress s.ipTokenBuckets := h
        rw [hlru] at h
        exact h.pop
      · obtain ⟨hne, hmem⟩ := Finmap.mem_erase.mp hmem
        exact ⟨hmem, Finmap.lookup_erase_ne hne⟩
  have hnew' : ip ∉ buckets := fun hmem => hnew (hsub ip hmem).1
  have hcreate : findOrCreateIpBucket ip now s = { s with
      ipBucketLru := lru ++ [⟨s.nextLruAddress, ip⟩]
      nextLruAddress := s.nextLruAddress + 1
      ipTokenBuckets := buckets.insert ip ⟨kIpBucketBurst, now, now, s.nextLruAddress⟩ } := by
    rw [findOrCreateIpBucket, hb]
    simp only [evictOldestIpBuckets, pushBackLru, hevict]
  rw [hcreate]
  refine ⟨_, ?_, Finmap.lookup_insert .., rfl, hlevel.symm, fun ip' hne hkept => ?_⟩
  · exact htable.push hnew' hroom rfl rfl rfl ⟨ipPolicy.burst_nonneg, le_refl _⟩
  · show (buckets.insert ip _).lookup ip' = _
    rw [Finmap.lookup_insert_of_ne _ hne]
    by_cases hmem : ip' ∈ s.ipTokenBuckets
    · have hmem' := (Finmap.mem_insert.mp (hkept hmem)).resolve_left hne
      exact (hsub ip' hmem').2
    · rw [Finmap.lookup_eq_none.mpr hmem]
      exact Finmap.lookup_eq_none.mpr fun hmem' => hmem (hsub ip' hmem').1

theorem findOrCreateIpBucket_found (h : TableOf now s) (ip : Bytes) :
    ∃ bucket, Found now ip s (findOrCreateIpBucket ip now s) bucket := by
  cases hb : s.ipTokenBuckets.lookup ip with
  | none => exact found_create h hb
  | some bucket =>
    rw [findOrCreateIpBucket, hb]
    exact found_touch h hb

/-- A clock that nothing moves on. -/
theorem wp_steadyClockNow_still {Q : Time → Round → Prop} {r : Round} (hticks : r.io.ticks = [])
    (h : Q r.io.now r) : wp steadyClockNow Q r := by
  show Q (r.io.now + r.io.ticks.headD 0)
    { r with io := { r.io with now := r.io.now + r.io.ticks.headD 0, ticks := r.io.ticks.tail } }
  rw [hticks]
  rw [show r = { r with io := { r.io with ticks := [] } } by rw [← hticks]] at h
  exact h

/-- Whatever `WriteBestEffort` meets, it only goes into the history. -/
theorem wp_writeErrorResponse {Q : Bool → Round → Prop} {r : Round} {fd : Fd} {life : Option Nat}
    {data : Bytes} (h : ∀ ok events io, Q ok { r with server := r.server.log events, io := io }) :
    wp (writeErrorResponse fd life data) Q r := h _ _ _

/-- The answer of one call, and what it leaves of the table. -/
theorem checkArrival_eq {t : Server}
    (ht : t = findOrCreateIpBucket a.ip a.now (cleanupExpiredIpBuckets a.now s))
    (hb : t.ipTokenBuckets.lookup a.ip = some bucket) :
    ∃ s', checkArrival a s = .ok (decide (1 ≤ bucket.tokens), s') ∧
      s'.ipBucketLru = t.ipBucketLru ∧ s'.nextLruAddress = t.nextLruAddress ∧
      s'.ipTokenBuckets = if 1 ≤ bucket.tokens then
        t.ipTokenBuckets.insert a.ip { bucket with tokens := bucket.tokens - 1 }
        else t.ipTokenBuckets := by
  have hcall : wp (checkIpRateLimitBeforeRegister a.fd a.peerEndpoint)
      (fun answer r' => answer = decide (1 ≤ bucket.tokens) ∧
        r'.server.ipBucketLru = t.ipBucketLru ∧ r'.server.nextLruAddress = t.nextLruAddress ∧
        r'.server.ipTokenBuckets = if 1 ≤ bucket.tokens then
          t.ipTokenBuckets.insert a.ip { bucket with tokens := bucket.tokens - 1 }
          else t.ipTokenBuckets)
      { server := s, io := { now := a.now, writes := a.writes } } := by
    have ht : findOrCreateIpBucket (extractIpFromPeerEndpoint a.peerEndpoint) a.now
        (cleanupExpiredIpBuckets a.now s) = t := ht.symm
    have hb : t.ipTokenBuckets.lookup (extractIpFromPeerEndpoint a.peerEndpoint) = some bucket := hb
    unfold checkIpRateLimitBeforeRegister
    rw [wp_bind]
    apply wp_steadyClockNow_still rfl
    simp only [wp_bind, wp_modifyServer, wp_get, ht, hb, wp_ite]
    refine ⟨fun hlow => ?_, fun henough => ?_⟩
    · have hlow : ¬ 1 ≤ bucket.tokens := not_le.mpr hlow
      apply wp_writeErrorResponse
      intro ok events io
      refine ⟨(decide_eq_false hlow).symm, rfl, rfl, ?_⟩
      rw [if_neg hlow]
      rfl
    · have henough : 1 ≤ bucket.tokens := not_lt.mp henough
      refine ⟨(decide_eq_true henough).symm, rfl, rfl, ?_⟩
      rw [if_pos henough]
      rfl
  obtain ⟨answer, r', e, rfl, hrest⟩ := (wp_iff _ _ _).mp hcall
  refine ⟨r'.server, ?_, hrest⟩
  rw [checkArrival, e]
  rfl

/-- One call takes its token from the bucket of its own IP and leaves the others alone. -/
structure Checked (a : Arrival) (s : Server) (answer : Bool) (s' : Server) : Prop where
  table : TableOf a.now s'
  answer : answer = ((bucketOf s.ipTokenBuckets a.ip).offer ipPolicy (toSeconds a.now)).1
  bucket : bucketOf s'.ipTokenBuckets a.ip =
    ((bucketOf s.ipTokenBuckets a.ip).offer ipPolicy (toSeconds a.now)).2
  others : ∀ ip, ip ≠ a.ip → ¬ EvictsBucket a ip s → ∀ later, a.now ≤ later →
    (bucketOf s'.ipTokenBuckets ip).levelAt ipPolicy (toSeconds later) =
      (bucketOf s.ipTokenBuckets ip).levelAt ipPolicy (toSeconds later)

theorem tableOf_cleanup (h : TableOf now s) (hle : now ≤ later) :
    TableOf later (cleanupExpiredIpBuckets later s) := (cleanupLoop_spec (h.mono hle) later).1

theorem checkArrival_checked (h : TableOf now s) (hnow : now ≤ a.now) :
    ∃ answer s', checkArrival a s = .ok (answer, s') ∧ Checked a s answer s' := by
  obtain ⟨bucket, hfound⟩ := findOrCreateIpBucket_found (tableOf_cleanup h hnow) a.ip
  obtain ⟨s', e, hlru, hnext, hbuckets⟩ := checkArrival_eq rfl hfound.found
  have hlevel : bucket.tokens =
      (bucketOf s.ipTokenBuckets a.ip).levelAt ipPolicy (toSeconds a.now) :=
    hfound.level.trans (levelAt_cleanup h a.ip (Nat.le_refl _))
  have htable := hfound.table
  have hbounds := htable.tokens a.ip bucket hfound.found
  -- the bucket after the call, and the others before a token is taken
  have hothers (ip : Bytes) (hne : ip ≠ a.ip) : s'.ipTokenBuckets.lookup ip =
      (findOrCreateIpBucket a.ip a.now (cleanupExpiredIpBuckets a.now s)).ipTokenBuckets.lookup ip := by
    rw [hbuckets]
    split
    · exact Finmap.lookup_insert_of_ne _ hne
    · rfl
  refine ⟨_, s', e, ?_, ?_, ?_, fun ip hne hkept later hle => ?_⟩
  · show RateTable ..
    rw [hlru, hnext, hbuckets]
    split
    · rename_i henough
      exact htable.take hfound.found (sub_nonneg.mpr henough) (by linarith)
    · exact htable
  · rw [Bucket.offer, ← hlevel]
    split
    · rename_i hlow
      exact decide_eq_false (not_le.mpr hlow)
    · rename_i henough
      exact decide_eq_true (not_lt.mp henough)
  · rw [Bucket.offer, ← hlevel]
    split
    · rename_i hlow
      rw [bucketOf, hbuckets, if_neg (not_le.mpr hlow), hfound.found]
      simp only [entryBucket, hfound.refill]
    · rename_i henough
      rw [bucketOf, hbuckets, if_pos (not_lt.mp henough), Finmap.lookup_insert]
      simp only [entryBucket, hfound.refill]
  · have hlookup : s'.ipTokenBuckets.lookup ip =
        (cleanupExpiredIpBuckets a.now s).ipTokenBuckets.lookup ip := by
      rw [hothers ip hne]
      refine hfound.others ip hne fun hmem => ?_
      by_contra hgone
      exact hkept ⟨hmem, hgone⟩
    rw [bucketOf, hlookup]
    exact levelAt_cleanup h ip hle

/-- **Eviction takes the oldest.**  Nothing is evicted while there is room, and otherwise no
bucket that is left was seen before the evicted one. -/
theorem evictsBucket_oldest (h : TableOf now s) (hnow : now ≤ a.now) (he : EvictsBucket a ip s) :
    kIpBucketMaxEntries ≤ s.ipTokenBuckets.keys.card ∧
      ∀ bucket ip' bucket',
        (cleanupExpiredIpBuckets a.now s).ipTokenBuckets.lookup ip = some bucket →
        (cleanupExpiredIpBuckets a.now s).ipTokenBuckets.lookup ip' = some bucket' →
          bucket.lastSeen ≤ bucket'.lastSeen := by
  obtain ⟨hmem, hgone⟩ := he
  have hclean : TableOf a.now _ := tableOf_cleanup h hnow
  have hsub : (cleanupExpiredIpBuckets a.now s).ipTokenBuckets.keys ⊆ s.ipTokenBuckets.keys := by
    intro ip' hip
    obtain ⟨bucket, hb⟩ := Finmap.mem_iff.mp (Finmap.mem_keys.mp hip)
    have hold := ((cleanupLoop_spec h a.now).2 ip' bucket).mp hb
    exact Finmap.mem_keys.mpr (Finmap.mem_of_lookup_eq_some hold.1)
  generalize cleanupExpiredIpBuckets a.now s = t at *
  -- only a new bucket takes the place of another, which is the front of the list
  obtain ⟨node, rest, hlru, rfl, hfull⟩ : ∃ node rest, t.ipBucketLru = node :: rest ∧ node.ip = ip ∧
      kIpBucketMaxEntries ≤ t.ipTokenBuckets.keys.card := by
    unfold findOrCreateIpBucket at hgone
    cases hb : t.ipTokenBuckets.lookup a.ip with
    | some bucket =>
      rw [hb] at hgone
      exact absurd (Finmap.mem_insert.mpr (.inr hmem)) hgone
    | none =>
      rw [hb] at hgone
      simp only [evictOldestIpBuckets, pushBackLru] at hgone
      rcases evictLoop_spec hclean with ⟨-, e⟩ | ⟨node, rest, hlru, e, -⟩
      · rw [e] at hgone
        exact absurd (Finmap.mem_insert.mpr (.inr hmem)) hgone
      · have hown : node.ip = ip := by
          by_contra hne
          rw [e] at hgone
          exact hgone (Finmap.mem_insert.mpr (.inr (Finmap.mem_erase.mpr ⟨Ne.symm hne, hmem⟩)))
        refine ⟨node, rest, hlru, hown, Nat.not_lt.mp fun hroom => ?_⟩
        rw [hlru, evictLoop, if_neg (Nat.not_le.mpr hroom)] at e
        rw [hlru, evictLoop, if_neg (Nat.not_le.mpr hroom)] at hgone
        exact hgone (Finmap.mem_insert.mpr (.inr hmem))
  refine ⟨hfull.trans (Finset.card_le_card hsub), fun bucket ip' bucket' hb hb' => ?_⟩
  have hrecency : Recency (·.lastSeen) (node.ip :: rest.map (·.ip)) t.ipTokenBuckets := by
    have := hclean.recency
    rwa [hlru] at this
  exact hrecency.head_le hb hb'

/-! ## Sequences of calls -/

/-- The requests an ideal table sees. -/
def requestsOf (arrivals : List Arrival) : List (Bytes × ℚ) :=
  arrivals.map fun a => (a.ip, toSeconds a.now)

/-- No request from `now` on can tell the table from these ideal buckets. -/
def Agrees (now : Time) (s : Server) (table : Bytes → Bucket ℚ) : Prop :=
  ∀ ip later, now ≤ later → (bucketOf s.ipTokenBuckets ip).levelAt ipPolicy (toSeconds later) =
    (table ip).levelAt ipPolicy (toSeconds later)

/-- **Step.**  A call that evicts nothing answers like the ideal table. -/
theorem Agrees.step {answer : Bool} {table : Bytes → Bucket ℚ} (h : Agrees now s table)
    (hnow : now ≤ a.now) (hc : Checked a s answer s') (hroom : ∀ ip, ¬ EvictsBucket a ip s) :
    answer = ((table a.ip).offer ipPolicy (toSeconds a.now)).1 ∧
      Agrees a.now s' (Function.update table a.ip
        ((table a.ip).offer ipPolicy (toSeconds a.now)).2) := by
  have hoffer := Bucket.offer_congr (h a.ip a.now hnow)
  refine ⟨hc.answer.trans (congrArg Prod.fst hoffer), fun ip later hle => ?_⟩
  by_cases hne : ip = a.ip
  · subst hne
    rw [Function.update_self, hc.bucket, hoffer]
  · rw [Function.update_of_ne hne, hc.others ip hne (hroom ip) later hle]
    exact h ip later (hnow.trans hle)

theorem checkArrivals_cons {arrivals : List Arrival} {answers : List Bool} {t : Server}
    (h : checkArrivals (a :: arrivals) s = .ok (answers, t)) :
    ∃ answer rest s', checkArrival a s = .ok (answer, s') ∧
      checkArrivals arrivals s' = .ok (rest, t) ∧ answers = answer :: rest := by
  rw [checkArrivals] at h
  cases hc : checkArrival a s with
  | error e =>
    rw [hc] at h
    cases h
  | ok result =>
    rw [hc] at h
    change (checkArrivals arrivals result.2 >>= fun rest => _) = _ at h
    cases hr : checkArrivals arrivals result.2 with
    | error e =>
      rw [hr] at h
      cases h
    | ok rest =>
      rw [hr] at h
      cases h
      exact ⟨result.1, rest.1, result.2, rfl, hr, rfl⟩

theorem checkArrivals_of_cons {arrivals : List Arrival} {answer : Bool} {rest : List Bool}
    {t : Server} (hc : checkArrival a s = .ok (answer, s'))
    (hr : checkArrivals arrivals s' = .ok (rest, t)) :
    checkArrivals (a :: arrivals) s = .ok (answer :: rest, t) := by
  rw [checkArrivals, hc]
  show (checkArrivals arrivals s' >>= fun rest => _) = _
  rw [hr]
  rfl

/-- A run is one up to any point and one from there on. -/
theorem checkArrivals_append {pre post : List Arrival} {answers : List Bool} {t : Server}
    (h : checkArrivals (pre ++ post) s = .ok (answers, t)) :
    ∃ before after s', checkArrivals pre s = .ok (before, s') ∧
      checkArrivals post s' = .ok (after, t) ∧ answers = before ++ after := by
  induction pre generalizing s answers with
  | nil => exact ⟨[], answers, s, rfl, h, rfl⟩
  | cons a pre ih =>
    obtain ⟨answer, rest, s₁, hc, hr, rfl⟩ := checkArrivals_cons h
    obtain ⟨before, after, s', hpre, hpost, rfl⟩ := ih hr
    exact ⟨answer :: before, after, s', checkArrivals_of_cons hc hpre, hpost, rfl⟩

theorem checkArrivals_of_append {pre post : List Arrival} {before after : List Bool} {t : Server}
    (hpre : checkArrivals pre s = .ok (before, s')) (hpost : checkArrivals post s' = .ok (after, t)) :
    checkArrivals (pre ++ post) s = .ok (before ++ after, t) := by
  induction pre generalizing s before with
  | nil =>
    cases hpre
    exact hpost
  | cons a pre ih =>
    obtain ⟨answer, rest, s₁, hc, hr, rfl⟩ := checkArrivals_cons hpre
    exact checkArrivals_of_cons hc (ih hr)

theorem checkArrivals_length {arrivals : List Arrival} {answers : List Bool} {t : Server}
    (h : checkArrivals arrivals s = .ok (answers, t)) : answers.length = arrivals.length := by
  induction arrivals generalizing s answers with
  | nil =>
    cases h
    rfl
  | cons a arrivals ih =>
    obtain ⟨answer, rest, s', -, hr, rfl⟩ := checkArrivals_cons h
    rw [List.length_cons, List.length_cons, ih hr]

/-- A run goes through to its end and keeps the table in order. -/
theorem checkArrivals_table {arrivals : List Arrival} (h : TableOf now s)
    (htime : Chronological arrivals) (hfrom : ∀ a ∈ arrivals, now ≤ a.now) :
    ∃ answers t, checkArrivals arrivals s = .ok (answers, t) ∧
      ∀ later, now ≤ later → (∀ a ∈ arrivals, a.now ≤ later) → TableOf later t := by
  induction arrivals generalizing s now with
  | nil => exact ⟨[], s, rfl, fun later hle _ => h.mono hle⟩
  | cons a arrivals ih =>
    obtain ⟨hlater, htime⟩ := List.pairwise_cons.mp htime
    obtain ⟨answer, s', hc, hchecked⟩ := checkArrival_checked h (hfrom a List.mem_cons_self)
    obtain ⟨rest, t, hr, htable⟩ := ih hchecked.table htime hlater
    refine ⟨answer :: rest, t, checkArrivals_of_cons hc hr, fun later _ hle => ?_⟩
    exact htable later (hle a List.mem_cons_self) fun a' ha' => hle a' (List.mem_cons_of_mem _ ha')

/-- **Run.**  As long as nothing is evicted the answers are those of the ideal table. -/
theorem checkArrivals_ideal {arrivals : List Arrival} {answers : List Bool} {t : Server}
    {table : Bytes → Bucket ℚ} (h : TableOf now s) (hagrees : Agrees now s table)
    (hrun : checkArrivals arrivals s = .ok (answers, t)) (htime : Chronological arrivals)
    (hfrom : ∀ a ∈ arrivals, now ≤ a.now)
    (hkept : ∀ pre a post, arrivals = pre ++ a :: post → ∀ answers' s',
      checkArrivals pre s = .ok (answers', s') → ∀ ip, ¬ EvictsBucket a ip s') :
    answers = TokenBucket.answers ipPolicy (requestsOf arrivals) table := by
  induction arrivals generalizing s now table answers with
  | nil =>
    cases hrun
    rfl
  | cons a arrivals ih =>
    obtain ⟨hlater, htime⟩ := List.pairwise_cons.mp htime
    have hnow := hfrom a List.mem_cons_self
    obtain ⟨answer, rest, s', hc, hr, rfl⟩ := checkArrivals_cons hrun
    obtain ⟨_, _, hc', hchecked⟩ := checkArrival_checked h hnow
    rw [hc] at hc'
    cases hc'
    obtain ⟨hanswer, hagrees⟩ := hagrees.step hnow hchecked (hkept [] a arrivals rfl [] s rfl)
    have hrest := ih hchecked.table hagrees hr htime hlater fun pre a' post e answers' s₁ hpre =>
      hkept (a :: pre) a' post (by rw [e, List.cons_append]) (answer :: answers') s₁
        (checkArrivals_of_cons hc hpre)
    rw [hanswer, hrest]
    rfl

/-- **Run of one IP.**  As long as its bucket is not evicted, the answers to one IP are those of
its bucket. -/
theorem checkArrivals_decisions {arrivals : List Arrival} {answers : List Bool} {t : Server}
    {b : Bucket ℚ} (h : TableOf now s)
    (hb : ∀ later, now ≤ later → (bucketOf s.ipTokenBuckets ip).levelAt ipPolicy (toSeconds later) =
      b.levelAt ipPolicy (toSeconds later))
    (hrun : checkArrivals arrivals s = .ok (answers, t)) (htime : Chronological arrivals)
    (hfrom : ∀ a ∈ arrivals, now ≤ a.now)
    (hkept : ∀ pre a post, arrivals = pre ++ a :: post → ∀ answers' s',
      checkArrivals pre s = .ok (answers', s') → ¬ EvictsBucket a ip s') :
    answersTo ip (requestsOf arrivals) answers =
      decisions ipPolicy (timesOf ip (requestsOf arrivals)) b := by
  induction arrivals generalizing s now b answers with
  | nil => rfl
  | cons a arrivals ih =>
    obtain ⟨hlater, htime⟩ := List.pairwise_cons.mp htime
    have hnow := hfrom a List.mem_cons_self
    obtain ⟨answer, rest, s', hc, hr, rfl⟩ := checkArrivals_cons hrun
    obtain ⟨_, _, hc', hchecked⟩ := checkArrival_checked h hnow
    rw [hc] at hc'
    cases hc'
    have hrest {b' : Bucket ℚ} (hb' : ∀ later, a.now ≤ later →
        (bucketOf s'.ipTokenBuckets ip).levelAt ipPolicy (toSeconds later) =
          b'.levelAt ipPolicy (toSeconds later)) :=
      ih hchecked.table hb' hr htime hlater fun pre a' post e answers' s₁ hpre =>
        hkept (a :: pre) a' post (by rw [e, List.cons_append]) (answer :: answers') s₁
          (checkArrivals_of_cons hc hpre)
    by_cases hip : ip = a.ip
    · subst hip
      have hoffer := Bucket.offer_congr (hb a.now hnow)
      have hrest := @hrest (b.offer ipPolicy (toSeconds a.now)).2 fun later _ => by
        rw [hchecked.bucket, hoffer]
      rw [hchecked.answer, hoffer]
      simpa [answersTo, timesOf, requestsOf, decisions] using hrest
    · have hown := hkept [] a arrivals rfl [] s rfl
      have hrest := @hrest b fun later hle => by
        rw [hchecked.others ip hip hown later hle]
        exact hb later (hnow.trans hle)
      simpa [answersTo, timesOf, requestsOf, Ne.symm hip] using hrest

/-! ## Windows of time -/

/-- What fails for one accept and then for all later ones fails from there to the end. -/
theorem forall_dropWhile {arrivals : List Arrival} (h : Chronological arrivals)
    {p : Arrival → Bool} (hp : ∀ a a', a.now ≤ a'.now → p a = false → p a' = false) :
    ∀ a ∈ arrivals.dropWhile p, p a = false := by
  induction arrivals with
  | nil =>
    intro a ha
    cases ha
  | cons a arrivals ih =>
    obtain ⟨hlater, htail⟩ := List.pairwise_cons.mp h
    cases hpa : p a with
    | true =>
      rw [List.dropWhile_cons_of_pos hpa]
      exact ih htail
    | false =>
      rw [List.dropWhile_cons_of_neg (by simp [hpa])]
      intro a' ha'
      rcases List.mem_cons.mp ha' with rfl | hmem
      · exact hpa
      · exact hp a a' (hlater a' hmem) hpa

/-- A run is what came before a window, what came in it and what came after it. -/
theorem exists_window {arrivals : List Arrival} (h : Chronological arrivals) (start stop : Time) :
    ∃ before inside after, arrivals = before ++ (inside ++ after) ∧ (∀ a ∈ before, a.now < start) ∧
      (∀ a ∈ inside, start ≤ a.now ∧ a.now ≤ stop) ∧ ∀ a ∈ after, stop < a.now := by
  let early (a : Arrival) : Bool := decide (a.now < start)
  let inTime (a : Arrival) : Bool := decide (a.now ≤ stop)
  have hearly (a a' : Arrival) (hle : a.now ≤ a'.now) (hp : early a = false) : early a' = false :=
    decide_eq_false (Nat.not_lt.mpr ((Nat.not_lt.mp (of_decide_eq_false hp)).trans hle))
  have hinTime (a a' : Arrival) (hle : a.now ≤ a'.now) (hp : inTime a = false) : inTime a' = false :=
    decide_eq_false (Nat.not_le.mpr ((Nat.not_le.mp (of_decide_eq_false hp)).trans_le hle))
  have hstarted : Chronological (arrivals.dropWhile early) := h.sublist (List.dropWhile_sublist _)
  have hfrom (a : Arrival) (ha : a ∈ arrivals.dropWhile early) : start ≤ a.now :=
    Nat.not_lt.mp (of_decide_eq_false (forall_dropWhile h hearly a ha))
  refine ⟨arrivals.takeWhile early, (arrivals.dropWhile early).takeWhile inTime,
    (arrivals.dropWhile early).dropWhile inTime, ?_, fun a ha => ?_, fun a ha => ⟨?_, ?_⟩,
    fun a ha => ?_⟩
  · rw [List.takeWhile_append_dropWhile, List.takeWhile_append_dropWhile]
  · have : early a = true := List.mem_takeWhile_imp ha
    exact of_decide_eq_true this
  · exact hfrom a ((List.takeWhile_sublist _).mem ha)
  · have : inTime a = true := List.mem_takeWhile_imp ha
    exact of_decide_eq_true this
  · exact Nat.not_le.mp (of_decide_eq_false (forall_dropWhile hstarted hinTime a ha))

/-- The bucket of an IP is never empty, never over its burst and never ahead of the clock. -/
theorem bucketOf_bounds (h : TableOf now s) (ip : Bytes) :
    0 ≤ (bucketOf s.ipTokenBuckets ip).level ∧
      (bucketOf s.ipTokenBuckets ip).asOf ≤ toSeconds now := by
  unfold bucketOf
  cases hb : s.ipTokenBuckets.lookup ip with
  | none => exact ⟨ipPolicy.burst_nonneg, toSeconds_nonneg now⟩
  | some bucket =>
    have hpast : bucket.lastRefill ≤ now := (h.refilled ip bucket hb).le.trans (h.past ip bucket hb)
    exact ⟨(h.tokens ip bucket hb).1, toSeconds_mono hpast⟩

end WebServer.Refine
