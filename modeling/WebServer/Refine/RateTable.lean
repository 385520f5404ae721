import WebServer.Core.Arrivals
import WebServer.Lib.Recency
import WebServer.Lib.WeakestPre

/-!
# The table of token buckets

`ip_bucket_lru_` and `ip_token_buckets_` are one table in the order of last use, and
every bucket points to its own node of the list.  Expiry and eviction take keys out
of it, `TouchIpBucket` takes one out and puts it at the end.
-/

namespace WebServer.Refine

open WebServer.Net WebServer.Core WeakestPre

/-- `ip_token_buckets_`. -/
abbrev Buckets := Finmap fun _ : Bytes => IpTokenBucketEntry

variable {now later : Time} {lru : List LruNode} {node : LruNode} {next : Nat} {buckets : Buckets}
  {ip : Bytes} {bucket : IpTokenBucketEntry}

/-- What holds of the list, of the next node's address and of the buckets at the time `now`. -/
structure RateTable (now : Time) (lru : List LruNode) (next : Nat) (buckets : Buckets) : Prop where
  recency : Recency (·.lastSeen) (lru.map (·.ip)) buckets
  iterators : ∀ node ∈ lru, ∀ bucket, buckets.lookup node.ip = some bucket →
    bucket.lruIterator = node.address
  addresses : (lru.map (·.address)).Nodup
  allocated : ∀ node ∈ lru, node.address < next
  size : buckets.keys.card ≤ kIpBucketMaxEntries
  tokens : ∀ ip bucket, buckets.lookup ip = some bucket →
    0 ≤ bucket.tokens ∧ bucket.tokens ≤ kIpBucketBurst
  refilled : ∀ ip bucket, buckets.lookup ip = some bucket → bucket.lastRefill = bucket.lastSeen
  past : ∀ ip bucket, buckets.lookup ip = some bucket → bucket.lastSeen ≤ now

/-- A bucket that has not been seen for longer than the TTL. -/
def Expired (now : Time) (bucket : IpTokenBucketEntry) : Prop :=
  kIpBucketTtl < now - bucket.lastSeen

theorem lookup_of_erase {ip' : Bytes} (h : (buckets.erase ip).lookup ip' = some bucket) :
    ip' ≠ ip ∧ buckets.lookup ip' = some bucket := by
  have hne : ip' ≠ ip := by
    rintro rfl
    rw [Finmap.lookup_erase] at h
    cases h
  rw [Finmap.lookup_erase_ne hne] at h
  exact ⟨hne, h⟩

/-- What is true of the old buckets and of the new one is true of all. -/
theorem forall_insert {P : IpTokenBucketEntry → Prop} (hself : P bucket)
    (hold : ∀ ip' b, buckets.lookup ip' = some b → P b) :
    ∀ ip' b, (buckets.insert ip bucket).lookup ip' = some b → P b := by
  intro ip' b hb
  by_cases hne : ip' = ip
  · subst hne
    rw [Finmap.lookup_insert] at hb
    cases hb
    exact hself
  · rw [Finmap.lookup_insert_of_ne _ hne] at hb
    exact hold ip' b hb

namespace RateTable

theorem empty (now : Time) : RateTable now [] 0 ∅ := by
  refine ⟨.empty _, by simp, List.nodup_nil, by simp, Nat.zero_le _, ?_, ?_, ?_⟩
  all_goals
    intro ip bucket h
    rw [Finmap.lookup_empty] at h
    cases h

theorem mono (h : RateTable now lru next buckets) (hle : now ≤ later) :
    RateTable later lru next buckets :=
  ⟨h.recency, h.iterators, h.addresses, h.allocated, h.size, h.tokens, h.refilled,
    fun ip bucket hb => (h.past ip bucket hb).trans hle⟩

/-- Every node of the list has a bucket. -/
theorem bucket_of_node (h : RateTable now lru next buckets) (hn : node ∈ lru) :
    ∃ bucket, buckets.lookup node.ip = some bucket :=
  Finmap.mem_iff.mp ((h.recency.keys node.ip).mp (List.mem_map_of_mem hn))

/-- Every bucket has a node, and points to it. -/
theorem node_of_bucket (h : RateTable now lru next buckets)
    (hb : buckets.lookup ip = some bucket) :
    ∃ node ∈ lru, node.ip = ip ∧ bucket.lruIterator = node.address := by
  have hmem := (h.recency.keys ip).mpr (Finmap.mem_of_lookup_eq_some hb)
  obtain ⟨node, hn, rfl⟩ := List.mem_map.mp hmem
  exact ⟨node, hn, rfl, h.iterators node hn bucket hb⟩

/-- A bucket is taken out, and its node. -/
theorem shrink {lru' : List LruNode} (h : RateTable now lru next buckets)
    (hrecency : Recency (·.lastSeen) (lru'.map (·.ip)) (buckets.erase ip)) (hsub : lru'.Sublist lru) :
    RateTable now lru' next (buckets.erase ip) := by
  have hcard : (buckets.erase ip).keys.card ≤ buckets.keys.card := by
    rw [Finmap.keys_erase]
    exact Finset.card_erase_le
  refine ⟨hrecency, fun n hn b hb => ?_, h.addresses.sublist (hsub.map _), fun n hn => ?_,
    hcard.trans h.size, fun ip b hb => ?_, fun ip b hb => ?_, fun ip b hb => ?_⟩
  · exact h.iterators n (hsub.mem hn) b (lookup_of_erase hb).2
  · exact h.allocated n (hsub.mem hn)
  · exact h.tokens ip b (lookup_of_erase hb).2
  · exact h.refilled ip b (lookup_of_erase hb).2
  · exact h.past ip b (lookup_of_erase hb).2

/-- The front of the list is taken out. -/
theorem pop (h : RateTable now (node :: lru) next buckets) :
    RateTable now lru next (buckets.erase node.ip) :=
  h.shrink h.recency.pop (List.sublist_cons_self ..)

/-- The node a bucket points to is taken out with the bucket. -/
theorem remove (h : RateTable now lru next buckets) (hb : buckets.lookup ip = some bucket) :
    RateTable now (lru.filter (·.address ≠ bucket.lruIterator)) next (buckets.erase ip) := by
  obtain ⟨own, hown, rfl, haddress⟩ := h.node_of_bucket hb
  -- no other node has this address, and none has this key
  have hsame {n : LruNode} (hn : n ∈ lru) : n.address ≠ bucket.lruIterator ↔ n.ip ≠ own.ip := by
    rw [haddress, ne_eq, ne_eq, not_iff_not]
    constructor
    · exact fun e => congrArg LruNode.ip (List.inj_on_of_nodup_map h.addresses hn hown e)
    · exact fun e => congrArg LruNode.address (List.inj_on_of_nodup_map h.recency.nodup hn hown e)
  have hkeys : (lru.filter (·.address ≠ bucket.lruIterator)).map (·.ip) =
      (lru.map (·.ip)).filter (· ≠ own.ip) := by
    rw [List.filter_map, List.filter_congr fun n hn => decide_eq_decide.mpr (hsame hn)]
    rfl
  exact h.shrink (hkeys ▸ h.recency.remove own.ip) List.filter_sublist

/-- A bucket that was seen at `now` is put at the end. -/
theorem push (h : RateTable now lru next buckets) (hnew : ip ∉ buckets)
    (hroom : buckets.keys.card < kIpBucketMaxEntries) (hseen : bucket.lastSeen = now)
    (hrefill : bucket.lastRefill = now) (hiterator : bucket.lruIterator = next)
    (htokens : 0 ≤ bucket.tokens ∧ bucket.tokens ≤ kIpBucketBurst) :
    RateTable now (lru ++ [⟨next, ip⟩]) (next + 1) (buckets.insert ip bucket) := by
  have hkeys : (buckets.insert ip bucket).keys = insert ip buckets.keys := by
    ext ip'
    rw [Finset.mem_insert, Finmap.mem_keys, Finmap.mem_keys, Finmap.mem_insert]
  refine ⟨?_, fun n hn b hb => ?_, ?_, fun n hn => ?_, ?_, forall_insert htokens h.tokens,
    forall_insert (hrefill.trans hseen.symm) h.refilled, forall_insert hseen.le h.past⟩
  · rw [List.map_append]
    apply h.recency.push hnew
    intro ip' b hb
    rw [hseen]
    exact h.past ip' b hb
  · rcases List.mem_append.mp hn with hn | hn
    · obtain ⟨b', hb'⟩ := h.bucket_of_node hn
      have hne : n.ip ≠ ip := by
        rintro rfl
        exact hnew (Finmap.mem_of_lookup_eq_some hb')
      rw [Finmap.lookup_insert_of_ne _ hne] at hb
      exact h.iterators n hn b hb
    · obtain rfl := List.mem_singleton.mp hn
      rw [Finmap.lookup_insert] at hb
      cases hb
      exact hiterator
  · rw [List.map_append]
    apply h.addresses.append (List.nodup_singleton _)
    simp only [List.disjoint_singleton, List.mem_map, not_exists, not_and]
    intro n hn
    exact Nat.ne_of_lt (h.allocated n hn)
  · rcases List.mem_append.mp hn with hn | hn
    · exact Nat.lt_succ_of_lt (h.allocated n hn)
    · obtain rfl := List.mem_singleton.mp hn
      exact Nat.lt_succ_self _
  · rw [hkeys, Finset.card_insert_of_notMem (by rwa [Finmap.mem_keys])]
    exact hroom

/-- A token is taken out of a bucket. -/
theorem take (h : RateTable now lru next buckets) (hb : buckets.lookup ip = some bucket)
    {tokens : ℚ} (hlow : 0 ≤ tokens) (hhigh : tokens ≤ bucket.tokens) :
    RateTable now lru next (buckets.insert ip { bucket with tokens }) := by
  have hkeys : (buckets.insert ip { bucket with tokens }).keys = buckets.keys := by
    ext ip'
    rw [Finmap.mem_keys, Finmap.mem_keys, Finmap.mem_insert]
    constructor
    · rintro (rfl | hmem)
      · exact Finmap.mem_of_lookup_eq_some hb
      · exact hmem
    · exact .inr
  refine ⟨h.recency.replace hb rfl, fun n hn b hb' => ?_, h.addresses, h.allocated, hkeys ▸ h.size,
    forall_insert ⟨hlow, hhigh.trans (h.tokens ip bucket hb).2⟩ h.tokens,
    forall_insert (h.refilled ip bucket hb) h.refilled, forall_insert (h.past ip bucket hb) h.past⟩
  by_cases hne : n.ip = ip
  · subst hne
    rw [Finmap.lookup_insert] at hb'
    cases hb'
    exact h.iterators n hn bucket hb
  · rw [Finmap.lookup_insert_of_ne _ hne] at hb'
    exact h.iterators n hn b hb'

end RateTable

/-! ## Expiry and eviction -/

/-- **Expiry is exact.**  The loop stops at the first bucket that has not expired, and the
order of the list makes that right. -/
theorem cleanupLoop_spec (h : RateTable now lru next buckets) (at' : Time) :
    RateTable now (cleanupLoop at' lru buckets).1 next (cleanupLoop at' lru buckets).2 ∧
      ∀ ip bucket, (cleanupLoop at' lru buckets).2.lookup ip = some bucket ↔
        buckets.lookup ip = some bucket ∧ ¬ Expired at' bucket := by
  induction lru generalizing buckets with
  | nil =>
    refine ⟨h, fun ip bucket => ⟨fun hb => ?_, fun hb => hb.1⟩⟩
    obtain ⟨node, hn, -⟩ := h.node_of_bucket hb
    cases hn
  | cons node lru ih =>
    obtain ⟨oldest, holdest⟩ := h.bucket_of_node List.mem_cons_self
    rw [cleanupLoop, holdest]
    dsimp only
    split
    · rename_i hfresh
      refine ⟨h, fun ip bucket => ⟨fun hb => ⟨hb, ?_⟩, fun hb => hb.1⟩⟩
      have hle : oldest.lastSeen ≤ bucket.lastSeen := h.recency.head_le holdest hb
      exact Nat.not_lt.mpr ((Nat.sub_le_sub_left hle at').trans hfresh)
    · rename_i hexpired
      obtain ⟨htable, hexact⟩ := ih h.pop
      refine ⟨htable, fun ip bucket => (hexact ip bucket).trans ?_⟩
      constructor
      · rintro ⟨hb, hlive⟩
        exact ⟨(lookup_of_erase hb).2, hlive⟩
      · rintro ⟨hb, hlive⟩
        have hne : ip ≠ node.ip := by
          rintro rfl
          rw [holdest] at hb
          cases hb
          exact hexpired (Nat.not_lt.mp hlive)
        exact ⟨(Finmap.lookup_erase_ne hne).trans hb, hlive⟩

/-- **Eviction takes the oldest.**  There is room, or the bucket that was not seen for the
longest time is taken out, and then there is room. -/
theorem evictLoop_spec (h : RateTable now lru next buckets) :
    (buckets.keys.card < kIpBucketMaxEntries ∧ evictLoop lru buckets = (lru, buckets)) ∨
    ∃ node rest, lru = node :: rest ∧ evictLoop lru buckets = (rest, buckets.erase node.ip) ∧
      (buckets.erase node.ip).keys.card < kIpBucketMaxEntries := by
  cases lru with
  | nil =>
    left
    have hcard := h.recency.card
    simp only [List.map_nil, List.length_nil] at hcard
    rw [hcard]
    exact ⟨by decide, rfl⟩
  | cons node rest =>
    by_cases hfull : kIpBucketMaxEntries ≤ buckets.keys.card
    · obtain ⟨bucket, hb⟩ := h.bucket_of_node List.mem_cons_self
      have hcard := Finset.card_erase_add_one (Finmap.mem_keys.mpr (Finmap.mem_of_lookup_eq_some hb))
      have hsize := h.size
      have hroom : (buckets.erase node.ip).keys.card < kIpBucketMaxEntries := by
        rw [Finmap.keys_erase]
        omega
      refine .inr ⟨node, rest, rfl, ?_, hroom⟩
      rw [evictLoop, if_pos hfull]
      cases rest with
      | nil => rfl
      | cons node' rest => rw [evictLoop, if_neg (Nat.not_le.mpr hroom)]
    · left
      rw [evictLoop, if_neg hfull]
      exact ⟨Nat.not_le.mp hfull, rfl⟩

end WebServer.Refine
