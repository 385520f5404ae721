import Mathlib.Data.Finset.Order
import WebServer.Refine.TokenBuckets

/-!
# Rate limiting per IP

The table of token buckets against the ideal one that forgets nobody, the rate it
lets pass, and its representation.
-/

namespace WebServer.Properties

open WebServer.Net WebServer.Core WebServer.Refine TokenBucket

variable {listenFd : Fd} {arrivals : List Arrival} {answers : List Bool} {s : Server}

/-- Of an endpoint as `DescribePeerEndpoint` writes it, the address is what the limit goes by. -/
theorem extractIpFromPeerEndpoint_of_port (ip : Bytes) {port : Bytes} (h : 58 ∉ port) :
    extractIpFromPeerEndpoint (ip ++ 58 :: port) = ip := by
  have hreverse : (ip ++ 58 :: port).reverse = port.reverse ++ 58 :: ip.reverse := by simp
  have hcolon : Search.find? [58] (port.reverse ++ 58 :: ip.reverse) = some port.reverse.length :=
    Search.find?_singleton_append (by simpa using h) _
  have hlength : (ip ++ 58 :: port).length - (port.reverse.length + 1) = ip.length := by simp
  unfold extractIpFromPeerEndpoint
  rw [hreverse, hcolon]
  dsimp only
  rw [hlength, List.take_left]

theorem tableOf_initializeServer (listenFd : Fd) : TableOf 0 (initializeServer listenFd) := .empty 0

theorem agrees_initializeServer (listenFd : Fd) :
    Agrees 0 (initializeServer listenFd) fun _ => full ipPolicy := fun _ _ _ => rfl

/-- The table never reaches its capacity. -/
def NeverFull (listenFd : Fd) (arrivals : List Arrival) : Prop :=
  ∀ pre, pre <+: arrivals → ∀ answers t,
    checkArrivals pre (initializeServer listenFd) = .ok (answers, t) →
      t.ipTokenBuckets.keys.card < kIpBucketMaxEntries

theorem not_evictsBucket_of_neverFull (htime : Chronological arrivals)
    (hroom : NeverFull listenFd arrivals) {pre post : List Arrival} {a : Arrival}
    (e : arrivals = pre ++ a :: post)
    (hpre : checkArrivals pre (initializeServer listenFd) = .ok (answers, s)) (ip : Bytes) :
    ¬ EvictsBucket a ip s := by
  intro hevicts
  obtain ⟨htimePre, hprior⟩ : Chronological pre ∧ ∀ a' ∈ pre, a'.now ≤ a.now := by
    rw [e] at htime
    obtain ⟨hpre, -, hcross⟩ := List.pairwise_append.mp htime
    exact ⟨hpre, fun a' ha' => hcross a' ha' a List.mem_cons_self⟩
  obtain ⟨_, _, hpre', hend⟩ :=
    checkArrivals_table (tableOf_initializeServer listenFd) htimePre fun _ _ => Nat.zero_le _
  rw [hpre] at hpre'
  cases hpre'
  have hfull := (evictsBucket_oldest (hend a.now (Nat.zero_le _) hprior) (Nat.le_refl _) hevicts).1
  have hroom := hroom pre (e ▸ List.prefix_append ..) answers s hpre
  omega

/-- **Admission refines the ideal table.**  While the table does not fill up, all answers are
those of one bucket per IP that is never forgotten, and the answers to one IP depend on its own
accepts alone. -/
theorem admission_ideal (listenFd : Fd) (arrivals : List Arrival) (htime : Chronological arrivals)
    (hroom : NeverFull listenFd arrivals) :
    ∃ answers s, checkArrivals arrivals (initializeServer listenFd) = .ok (answers, s) ∧
      answers = TokenBucket.answers ipPolicy (requestsOf arrivals) (fun _ => full ipPolicy) ∧
      ∀ ip, answersTo ip (requestsOf arrivals) answers =
        decisions ipPolicy (timesOf ip (requestsOf arrivals)) (full ipPolicy) := by
  have htable := tableOf_initializeServer listenFd
  obtain ⟨answers, s, hrun, -⟩ := checkArrivals_table htable htime fun _ _ => Nat.zero_le _
  have hideal : answers =
      TokenBucket.answers ipPolicy (requestsOf arrivals) (fun _ => full ipPolicy) :=
    checkArrivals_ideal htable (agrees_initializeServer listenFd) hrun htime
      (fun _ _ => Nat.zero_le _) fun pre a post e answers' s' hpre =>
        not_evictsBucket_of_neverFull htime hroom e hpre
  refine ⟨answers, s, hrun, hideal, fun ip => ?_⟩
  rw [hideal]
  exact answersTo_answers ip (requestsOf arrivals) _

/-- A client that comes back after its bucket has expired, and another in between. -/
def returning : List Arrival :=
  [{ fd := 5, peerEndpoint := ascii "10.0.0.1:40000", now := 0 },
    { fd := 6, peerEndpoint := ascii "10.0.0.2:40000", now := seconds 1 },
    { fd := 7, peerEndpoint := ascii "10.0.0.1:40001", now := seconds 601 }]

theorem returning_neverFull : NeverFull 3 returning := by
  have hprefixes : ∀ pre ∈ returning.inits, ∀ result ∈ (checkArrivals pre (initializeServer 3)).toOption,
      result.2.ipTokenBuckets.keys.card < kIpBucketMaxEntries := by
    decide +kernel
  intro pre hpre answers t hrun
  exact hprefixes pre ((List.mem_inits ..).mpr hpre) (answers, t) (by rw [hrun]; rfl)

theorem admission_ideal_returning :
    ∃ answers s, checkArrivals returning (initializeServer 3) = .ok (answers, s) ∧
      answers = TokenBucket.answers ipPolicy (requestsOf returning) (fun _ => full ipPolicy) := by
  obtain ⟨answers, s, hrun, hideal, -⟩ :=
    admission_ideal 3 returning (by unfold Chronological; decide) returning_neverFull
  exact ⟨answers, s, hrun, hideal⟩

/-! ## The rate of one IP -/

/-- How many accepts from `ip` were admitted between `start` and `stop`. -/
def admitted (ip : Bytes) (start stop : Time) (arrivals : List Arrival) (answers : List Bool) : Nat :=
  (arrivals.zip answers).countP fun (a, answer) =>
    answer && a.ip == ip && decide (start ≤ a.now) && decide (a.now ≤ stop)

theorem admitted_append {ip : Bytes} {start stop : Time} {pre post : List Arrival}
    {before after : List Bool} (h : before.length = pre.length) :
    admitted ip start stop (pre ++ post) (before ++ after) =
      admitted ip start stop pre before + admitted ip start stop post after := by
  rw [admitted, List.zip_append h.symm, List.countP_append]
  rfl

/-- Nothing outside the window counts. -/
theorem admitted_outside {ip : Bytes} {start stop : Time}
    (h : ∀ a ∈ arrivals, a.now < start ∨ stop < a.now) :
    admitted ip start stop arrivals answers = 0 := by
  apply List.countP_eq_zero.mpr
  rintro ⟨a, answer⟩ hmem
  simp only [Bool.and_eq_true, decide_eq_true_eq]
  rintro ⟨⟨-, hstart⟩, hstop⟩
  rcases h a (List.of_mem_zip hmem).1 with hlt | hlt
  · exact Nat.not_le.mpr hlt hstart
  · exact Nat.not_le.mpr hlt hstop

/-- Inside the window all that is admitted counts. -/
theorem admitted_inside {ip : Bytes} {start stop : Time}
    (h : ∀ a ∈ arrivals, start ≤ a.now ∧ a.now ≤ stop) :
    admitted ip start stop arrivals answers =
      (answersTo ip (requestsOf arrivals) answers).count true := by
  induction arrivals generalizing answers with
  | nil => rfl
  | cons a arrivals ih =>
    cases answers with
    | nil => rfl
    | cons answer answers =>
      obtain ⟨hstart, hstop⟩ := h a List.mem_cons_self
      have ih := @ih answers fun a' ha' => h a' (List.mem_cons_of_mem _ ha')
      unfold admitted at ih ⊢
      by_cases hip : a.ip = ip
      · cases answer <;>
          simp [answersTo, requestsOf, hip, hstart, hstop] at ih ⊢ <;>
          exact ih
      · simp [answersTo, requestsOf, hip] at ih ⊢
        exact ih

/-- **Rate bound.**  In any window in which its bucket is not evicted, an IP gets at most the
burst and what is refilled in that time. -/
theorem admitted_rate (listenFd : Fd) (arrivals : List Arrival) (htime : Chronological arrivals)
    (ip : Bytes) (start stop : Time) (hle : start ≤ stop)
    (hkept : ∀ pre a post, arrivals = pre ++ a :: post → start ≤ a.now → a.now ≤ stop →
      ∀ answers s, checkArrivals pre (initializeServer listenFd) = .ok (answers, s) →
        ¬ EvictsBucket a ip s) :
    ∃ answers s, checkArrivals arrivals (initializeServer listenFd) = .ok (answers, s) ∧
      (admitted ip start stop arrivals answers : ℚ) ≤ 200 + 50 * toSeconds (stop - start) := by
  have htable := tableOf_initializeServer listenFd
  obtain ⟨answers, s, hrun, -⟩ := checkArrivals_table htable htime fun _ _ => Nat.zero_le _
  refine ⟨answers, s, hrun, ?_⟩
  obtain ⟨before, inside, after, rfl, hbefore, hinside, hafter⟩ := exists_window htime start stop
  obtain ⟨htimeBefore, htime, -⟩ := List.pairwise_append.mp htime
  obtain ⟨htimeInside, -, -⟩ := List.pairwise_append.mp htime
  -- the three parts of the run
  obtain ⟨answersBefore, _, s₁, hrun₁, hrest, rfl⟩ := checkArrivals_append hrun
  obtain ⟨answersInside, answersAfter, s₂, hrun₂, -, rfl⟩ := checkArrivals_append hrest
  have htable₁ : TableOf start s₁ := by
    obtain ⟨_, _, hrun₁', htable₁⟩ := checkArrivals_table htable htimeBefore fun _ _ => Nat.zero_le _
    rw [hrun₁] at hrun₁'
    cases hrun₁'
    exact htable₁ start (Nat.zero_le _) fun a ha => (hbefore a ha).le
  have hcount : admitted ip start stop (before ++ (inside ++ after))
      (answersBefore ++ (answersInside ++ answersAfter)) =
        (answersTo ip (requestsOf inside) answersInside).count true := by
    rw [admitted_append (checkArrivals_length hrun₁), admitted_append (checkArrivals_length hrun₂),
      admitted_outside fun a ha => .inl (hbefore a ha), admitted_outside fun a ha => .inr (hafter a ha),
      admitted_inside hinside]
    omega
  have hdecisions : answersTo ip (requestsOf inside) answersInside = decisions ipPolicy
      (timesOf ip (requestsOf inside)) (bucketOf s₁.ipTokenBuckets ip) := checkArrivals_decisions
    htable₁ (fun _ _ => rfl) hrun₂ htimeInside (fun a ha => (hinside a ha).1) fun pre a post e answers' s' hpre => by
      have hwindow := hinside a (by rw [e]; exact List.mem_append_right _ List.mem_cons_self)
      exact hkept (before ++ pre) a (post ++ after) (by rw [e]; simp) hwindow.1 hwindow.2
        (answersBefore ++ answers') s' (checkArrivals_of_append hrun₁ hpre)
  -- the potential is the level of the bucket
  obtain ⟨hlevel, hasOf⟩ := bucketOf_bounds htable₁ ip
  have htimes : (timesOf ip (requestsOf inside)).Pairwise (· ≤ ·) ∧
      ∀ t ∈ timesOf ip (requestsOf inside), toSeconds start ≤ t ∧ t ≤ toSeconds stop := by
    have hrequests : (requestsOf inside).Pairwise fun q q' => q.2 ≤ q'.2 :=
      List.pairwise_map.mpr (htimeInside.imp toSeconds_mono)
    refine ⟨List.pairwise_map.mpr (hrequests.filter _), fun t ht => ?_⟩
    obtain ⟨q, hq, rfl⟩ := List.mem_map.mp ht
    obtain ⟨a, ha, rfl⟩ := List.mem_map.mp (List.mem_of_mem_filter hq)
    exact ⟨toSeconds_mono (hinside a ha).1, toSeconds_mono (hinside a ha).2⟩
  have hbound := admitted_le (P := ipPolicy) hlevel hasOf (toSeconds_mono hle) htimes.1
    (fun t ht => (htimes.2 t ht).1) fun t ht => (htimes.2 t ht).2
  have hburst := (bucketOf s₁.ipTokenBuckets ip).levelAt_le (P := ipPolicy) (toSeconds start)
  have hburst200 : ipPolicy.burst = 200 := rfl
  have hrate50 : ipPolicy.rate = 50 := rfl
  have hlength : toSeconds (stop - start) = toSeconds stop - toSeconds start := toSeconds_sub hle
  rw [hcount, hdecisions, hlength]
  rw [hburst200] at hburst
  rw [hrate50] at hbound
  linarith

theorem admitted_rate_returning :
    ∃ answers s, checkArrivals returning (initializeServer 3) = .ok (answers, s) ∧
      (admitted (ascii "10.0.0.1") 0 (seconds 601) returning answers : ℚ) ≤
        200 + 50 * toSeconds (seconds 601 - 0) := by
  have htime : Chronological returning := by unfold Chronological; decide
  exact admitted_rate 3 returning htime (ascii "10.0.0.1") 0 (seconds 601) (Nat.zero_le _)
    fun pre a post e _ _ answers s hpre =>
      not_evictsBucket_of_neverFull htime returning_neverFull e hpre _

/-! ## The representation -/

/-- **Representation.**  After any calls the list names the buckets once each, in the order in
which they were last seen, and they point back to it; expiry and eviction are then exact. -/
theorem rateTable_representation (listenFd : Fd) (arrivals : List Arrival)
    (htime : Chronological arrivals) :
    ∃ answers s, checkArrivals arrivals (initializeServer listenFd) = .ok (answers, s) ∧
      (s.ipBucketLru.map (·.ip)).Nodup ∧
      (∀ ip, ip ∈ s.ipBucketLru.map (·.ip) ↔ ip ∈ s.ipTokenBuckets) ∧
      (s.ipBucketLru.map (·.address)).Nodup ∧
      (∀ ip bucket, s.ipTokenBuckets.lookup ip = some bucket →
        ⟨bucket.lruIterator, ip⟩ ∈ s.ipBucketLru) ∧
      (s.ipBucketLru.map (·.ip)).Pairwise (fun ip ip' => ∀ bucket bucket',
        s.ipTokenBuckets.lookup ip = some bucket → s.ipTokenBuckets.lookup ip' = some bucket' →
          bucket.lastSeen ≤ bucket'.lastSeen) ∧
      s.ipTokenBuckets.keys.card ≤ 100000 ∧
      (∀ ip bucket, s.ipTokenBuckets.lookup ip = some bucket →
        0 ≤ bucket.tokens ∧ bucket.tokens ≤ 200) ∧
      (∀ now ip bucket, (cleanupExpiredIpBuckets now s).ipTokenBuckets.lookup ip = some bucket ↔
        s.ipTokenBuckets.lookup ip = some bucket ∧ ¬ seconds 600 < now - bucket.lastSeen) ∧
      ∀ a, (∀ a' ∈ arrivals, a'.now ≤ a.now) → ∀ ip, EvictsBucket a ip s →
        ∀ bucket ip' bucket',
          (cleanupExpiredIpBuckets a.now s).ipTokenBuckets.lookup ip = some bucket →
          (cleanupExpiredIpBuckets a.now s).ipTokenBuckets.lookup ip' = some bucket' →
            bucket.lastSeen ≤ bucket'.lastSeen := by
  obtain ⟨answers, s, hrun, hend⟩ :=
    checkArrivals_table (tableOf_initializeServer listenFd) htime fun _ _ => Nat.zero_le _
  obtain ⟨last, hlast⟩ := Finset.exists_le (arrivals.map (·.now)).toFinset
  have hlast (a : Arrival) (ha : a ∈ arrivals) : a.now ≤ last :=
    hlast a.now (List.mem_toFinset.mpr (List.mem_map_of_mem ha))
  have h : TableOf last s := hend last (Nat.zero_le _) hlast
  refine ⟨answers, s, hrun, h.recency.nodup, h.recency.keys, h.addresses, ?_, h.recency.sorted, h.size,
    h.tokens, fun now => (cleanupLoop_spec h now).2, ?_⟩
  · intro ip bucket hb
    obtain ⟨node, hn, rfl, haddress⟩ := h.node_of_bucket hb
    rw [haddress]
    exact hn
  · intro a hle ip hevicts
    exact (evictsBucket_oldest (hend a.now (Nat.zero_le _) hle) (Nat.le_refl _) hevicts).2

theorem rateTable_representation_returning :
    ∃ answers s, checkArrivals returning (initializeServer 3) = .ok (answers, s) ∧
      (s.ipBucketLru.map (·.ip)).Nodup ∧
      ∀ ip, ip ∈ s.ipBucketLru.map (·.ip) ↔ ip ∈ s.ipTokenBuckets := by
  obtain ⟨answers, s, hrun, hnodup, hkeys, -⟩ :=
    rateTable_representation 3 returning (by unfold Chronological; decide)
  exact ⟨answers, s, hrun, hnodup, hkeys⟩

end WebServer.Properties
