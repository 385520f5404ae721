import WebServer.Core.Runs
import WebServer.Refine.Output

/-!
# Accepted sockets start a machine

Specifications of the functions of `Core/Admission.lean`.  The token buckets are of
no concern to the machines; a registered socket begins a new run with a fresh id.
-/

namespace WebServer.Refine

open WebServer.Net WebServer.Http WebServer.Core WebServer.Life WeakestPre

variable {fd fd' : Fd} {p : Point} {c : ClientConnection} {peerEndpoint : Bytes} {now : Time}
  {s s' : Server} {r r' : Round}

/-- Between two handler calls it does not matter which connection is looked at. -/
theorem Refines.elsewhere (h : Refines fd .rest s) : Refines fd' .rest s := by
  refine ⟨fun fd₁ c hc => ?_, h.gone, h.ids, h.distinct, h.fresh, h.nodup, h.queued, h.listening,
    h.balance, h.metric, h.bounded, h.releases⟩
  have := h.live fd₁ c hc
  rwa [pointOf, ite_self] at this ⊢

/-! ## Registration -/

/-- The connection of a socket that has just been registered. -/
def acceptedConnection (fd : Fd) (peerEndpoint : Bytes) (id : Nat) : ClientConnection :=
  rearm .kHeader { socket := some fd, peerEndpoint, connectionId := id }

/-- The server went from `s` to `s'` by registering the socket `fd`. -/
structure Accepts (fd : Fd) (peerEndpoint : Bytes) (now : Time) (s s' : Server) : Prop where
  free : s.find fd = none
  notListening : s.listenFd ≠ fd
  clients : s'.clients =
    s.clients.insert fd (acceptedConnection fd peerEndpoint s.nextConnectionId)
  heap : s'.timerHeap = s.timerHeap ++ [timerNode .kHeader (now + kHeaderTimeout) fd
    (acceptedConnection fd peerEndpoint s.nextConnectionId)]
  trace : ∃ tr, s'.trace = s.trace ++ tr ∧ tr.filter (fun e => (life? e).isSome) =
    [.armed s.nextConnectionId .kHeader now (now + kHeaderTimeout)] ∧
    ∀ amount inflight, .released amount inflight ∉ tr
  nextId : s'.nextConnectionId = s.nextConnectionId + 1
  listenFd : s'.listenFd = s.listenFd
  queue : s'.readyQueue = s.readyQueue
  inflight : s'.globalInflightBytes = s.globalInflightBytes
  metric : s'.metrics.globalInflightBytesCurrent = s.metrics.globalInflightBytesCurrent

namespace Accepts

theorem find_self (h : Accepts fd peerEndpoint now s s') :
    s'.find fd = some (acceptedConnection fd peerEndpoint s.nextConnectionId) := by
  rw [Server.find, h.clients]
  exact Finmap.lookup_insert ..

theorem find_other (h : Accepts fd peerEndpoint now s s') (hne : fd' ≠ fd) :
    s'.find fd' = s.find fd' := by
  rw [Server.find, h.clients]
  exact Finmap.lookup_insert_of_ne _ hne

theorem history_eq (h : Accepts fd peerEndpoint now s s') (id : Nat) :
    history id s'.trace = history id s.trace ++
      history id [.armed s.nextConnectionId .kHeader now (now + kHeaderTimeout)] := by
  obtain ⟨tr, htr, hfil, -⟩ := h.trace
  rw [htr, history_append, ← history_filter_isSome _ tr, hfil]

theorem history_old (h : Accepts fd peerEndpoint now s s') {id : Nat}
    (hne : id ≠ s.nextConnectionId) : history id s'.trace = history id s.trace := by
  have hnew : history id [.armed s.nextConnectionId .kHeader now (now + kHeaderTimeout)] = [] :=
    history_of_others (by simp [life?, hne.symm])
  rw [h.history_eq, hnew, List.append_nil]

theorem nodes_old (h : Accepts fd peerEndpoint now s s') {id : Nat}
    (hne : id ≠ s.nextConnectionId) : nodesOf id s'.timerHeap = nodesOf id s.timerHeap := by
  have hnode : nodesOf id [timerNode .kHeader (now + kHeaderTimeout) fd
      (acceptedConnection fd peerEndpoint s.nextConnectionId)] = [] := by
    simp [nodesOf, timerNode, acceptedConnection, hne.symm]
  rw [h.heap, nodesOf_append, hnode, List.append_nil]

end Accepts

/-- **Begin.**  A registered socket is the beginning of a run. -/
theorem Refines.accept (h : Refines fd .rest s) (ha : Accepts fd peerEndpoint now s s') :
    Refines fd .rest s' := by
  have hid : (acceptedConnection fd peerEndpoint s.nextConnectionId).connectionId =
      s.nextConnectionId := rfl
  -- a connection elsewhere is the same as before, and older
  have hother {fd' : Fd} {d : ClientConnection} (hne : fd' ≠ fd) (hd : s'.find fd' = some d) :
      s.find fd' = some d ∧ d.connectionId < s.nextConnectionId := by
    rw [ha.find_other hne] at hd
    exact ⟨hd, h.ids fd' d hd⟩
  obtain ⟨hnone, hnodes⟩ := h.fresh s.nextConnectionId (Nat.le_refl _)
  refine ⟨fun fd' d hd => ?_, fun id hgone => ?_, fun fd' d hd => ?_, fun fd₁ d₁ fd₂ d₂ h₁ h₂ e => ?_,
    fun id hle => ?_, ha.queue ▸ h.nodup, fun fd' => ?_, ?_, ?_, ?_, ha.inflight ▸ h.bounded, ?_⟩
  · rw [pointOf, ite_self]
    by_cases hne : fd' = fd
    · subst hne
      rw [ha.find_self] at hd
      cases hd
      have harmed : history s.nextConnectionId
          [.armed s.nextConnectionId .kHeader now (now + kHeaderTimeout)] = [_] :=
        history_of_lives (by simp [life?])
      have hnode : nodesOf s.nextConnectionId [timerNode .kHeader (now + kHeaderTimeout) fd'
          (acceptedConnection fd' peerEndpoint s.nextConnectionId)] = [_] :=
        List.filter_eq_self.mpr (by simp [timerNode, hid])
      rw [hid, ha.history_eq, hnone, harmed, ha.heap, nodesOf_append, hnodes, hnode]
      exact .accept peerEndpoint now rfl
    · obtain ⟨hd, hlt⟩ := hother hne hd
      rw [ha.history_old (by omega), ha.nodes_old (by omega)]
      have := h.live fd' d hd
      rwa [pointOf, ite_self] at this
  · have hne : id ≠ s.nextConnectionId := fun e => hgone fd _ ha.find_self (hid.trans e.symm)
    rw [ha.history_old hne]
    apply h.gone id
    intro fd' d hd
    have hfd : fd' ≠ fd := by
      rintro rfl
      rw [ha.free] at hd
      cases hd
    exact hgone fd' d ((ha.find_other hfd).trans hd)
  · rw [ha.nextId]
    by_cases hne : fd' = fd
    · subst hne
      rw [ha.find_self] at hd
      cases hd
      rw [hid]
      exact Nat.lt_succ_self _
    · exact Nat.lt_succ_of_lt (hother hne hd).2
  · by_cases hne₁ : fd₁ = fd
    · by_cases hne₂ : fd₂ = fd
      · rw [hne₁, hne₂]
      · rw [hne₁, ha.find_self] at h₁
        cases h₁
        exact absurd e (Nat.ne_of_gt (hother hne₂ h₂).2)
    · by_cases hne₂ : fd₂ = fd
      · rw [hne₂, ha.find_self] at h₂
        cases h₂
        exact absurd e (Nat.ne_of_lt (hother hne₁ h₁).2)
      · exact h.distinct _ _ _ _ (hother hne₁ h₁).1 (hother hne₂ h₂).1 e
  · rw [ha.nextId] at hle
    rw [ha.history_old (by omega), ha.nodes_old (by omega)]
    exact h.fresh id (by omega)
  · rw [ha.queue, h.queued fd']
    by_cases hne : fd' = fd
    · subst hne
      rw [ha.find_self, ha.free]
      simp [acceptedConnection, rearm]
    · rw [ha.find_other hne]
  · rw [ha.listenFd, ha.find_other ha.notListening]
    exact h.listening
  · rw [ha.inflight, h.balance, ha.clients, TableSum.total_insert_of_absent Server.buffered ha.free]
    exact (Nat.zero_add _).symm
  · rw [ha.metric, ha.inflight]
    exact h.metric
  · obtain ⟨tr, htr, -, hrel⟩ := ha.trace
    intro amount inflight hmem
    rw [htr] at hmem
    rcases List.mem_append.mp hmem with hmem | hmem
    · exact h.releases _ _ hmem
    · exact absurd hmem (hrel amount inflight)

/-! ## What registering leaves alone -/

/-- The connections of `s` are as they were in `s'`, and all that is new is about connections
with new ids. -/
structure Admits (s s' : Server) : Prop where
  kept : ∀ fd c, s.find fd = some c → s'.find fd = some c
  fresh : ∀ fd c, s.find fd = none → s'.find fd = some c → ∃ peerEndpoint id,
    s.nextConnectionId ≤ id ∧ c = acceptedConnection fd peerEndpoint id
  queue : s'.readyQueue = s.readyQueue
  nextId : s.nextConnectionId ≤ s'.nextConnectionId
  listenFd : s'.listenFd = s.listenFd
  trace : ∃ tr, s'.trace = s.trace ++ tr ∧
    ∀ e ∈ tr, ∀ id, life? e = some id → s.nextConnectionId ≤ id

theorem Unmoved.admits (h : Unmoved s s') : Admits s s' := by
  have hfind (fd : Fd) : s'.find fd = s.find fd := by rw [Server.find, h.clients]; rfl
  obtain ⟨tr, htr, hnone⟩ := h.trace
  refine ⟨fun fd c hf => (hfind fd).trans hf, fun fd c hnot hf => ?_, h.queue, h.nextId.ge,
    h.listenFd, tr, htr, fun e he id hid => ?_⟩
  · rw [hfind, hnot] at hf
    cases hf
  · rw [(hnone e he).1] at hid
    cases hid

namespace Admits

theorem trans {s'' : Server} (h₁ : Admits s s') (h₂ : Admits s' s'') : Admits s s'' := by
  obtain ⟨tr₁, htr₁, hids₁⟩ := h₁.trace
  obtain ⟨tr₂, htr₂, hids₂⟩ := h₂.trace
  refine ⟨fun fd c hf => h₂.kept fd c (h₁.kept fd c hf), fun fd c hnot hf => ?_,
    h₂.queue.trans h₁.queue, h₁.nextId.trans h₂.nextId, h₂.listenFd.trans h₁.listenFd,
    tr₁ ++ tr₂, ?_, fun e he id hid => ?_⟩
  · cases hmid : s'.find fd with
    | none =>
      obtain ⟨peerEndpoint, id, hle, hc⟩ := h₂.fresh fd c hmid hf
      exact ⟨peerEndpoint, id, h₁.nextId.trans hle, hc⟩
    | some d =>
      rw [h₂.kept fd d hmid] at hf
      cases hf
      exact h₁.fresh fd c hnot hmid
  · rw [htr₂, htr₁, List.append_assoc]
  · rcases List.mem_append.mp he with he | he
    · exact hids₁ e he id hid
    · exact h₁.nextId.trans (hids₂ e he id hid)

/-- A connection that is new is closed again. -/
theorem close {s'' : Server} {events : List Event} (h : Admits s s') (hnot : s.find fd = none)
    (hqueue : fd ∉ s.readyQueue) (hm : Moves fd c none events [] s' s'')
    (hlives : ∀ e ∈ events, life? e = some c.connectionId) : Admits s s'' := by
  obtain ⟨tr, htr, hids⟩ := h.trace
  obtain ⟨new, hnew, hevents, -⟩ := hm.trace
  obtain ⟨peerEndpoint, id, hle, hc⟩ := h.fresh fd c hnot hm.found
  refine ⟨fun fd' d hf => ?_, fun fd' d hf hf' => ?_, ?_, h.nextId.trans hm.nextId.ge,
    hm.listenFd.trans h.listenFd, tr ++ new, ?_, fun e he id' hid => ?_⟩
  · have hne : fd' ≠ fd := by
      rintro rfl
      rw [hnot] at hf
      cases hf
    exact (hm.find_other hne).trans (h.kept fd' d hf)
  · by_cases hne : fd' = fd
    · subst hne
      rw [hm.find_self] at hf'
      cases hf'
    · rw [hm.find_other hne] at hf'
      exact h.fresh fd' d hf hf'
  · rw [hm.queue.purged, h.queue]
    exact List.filter_eq_self.mpr fun x hx => decide_eq_true fun e => hqueue (e ▸ hx)
  · rw [hnew, htr, List.append_assoc]
  · rcases List.mem_append.mp he with he | he
    · exact hids e he id' hid
    · have hmem : e ∈ events := hevents ▸ List.mem_filter.mpr ⟨he, by rw [hid]; rfl⟩
      rw [hlives e hmem, hc] at hid
      cases hid
      exact hle

end Admits

theorem Accepts.admits (h : Accepts fd peerEndpoint now s s') : Admits s s' := by
  obtain ⟨tr, htr, hevents, -⟩ := h.trace
  refine ⟨fun fd' c hf => ?_, fun fd' c hnot hf => ?_, h.queue, h.nextId ▸ Nat.le_succ _,
    h.listenFd, tr, htr, fun e he id hid => ?_⟩
  · have hne : fd' ≠ fd := by
      rintro rfl
      rw [h.free] at hf
      cases hf
    rwa [h.find_other hne]
  · by_cases hne : fd' = fd
    · subst hne
      rw [h.find_self] at hf
      cases hf
      exact ⟨peerEndpoint, s.nextConnectionId, Nat.le_refl _, rfl⟩
    · rw [h.find_other hne, hnot] at hf
      cases hf
  · have hmem : e ∈ tr.filter fun e => (life? e).isSome :=
      List.mem_filter.mpr ⟨he, by rw [hid]; rfl⟩
    rw [hevents, List.mem_singleton] at hmem
    subst hmem
    exact (Option.some.inj hid).le

/-! ## The accept loop -/

/-- A connection that has just been registered is closed again. -/
theorem Refines.closeAccepted {t : Server} {reason : CloseReason} (h : Refines fd .rest s)
    (ha : Accepts fd peerEndpoint now s s') (hu : Unmoved s' t) (hf : t.find fd = some c)
    (he : End fd .rest c [.closed c reason]) :
    Refines fd .rest (closeClientConnection fd reason t) ∧
      Admits s (closeClientConnection fd reason t) := by
  have hqueue : fd ∉ s.readyQueue := by simp [h.queued, ha.free]
  have h' := (h.accept ha).unmoved hu
  have hm := Moves.close hf (h'.run hf).closing reason
  exact ⟨h'.close hm he, (ha.admits.trans hu.admits).close ha.free hqueue hm he.lives⟩

theorem enforceConnectionLimit_refines (h : Refines fd .rest s)
    (ha : Accepts fd peerEndpoint now s s') :
    Refines fd .rest (enforceConnectionLimitAfterRegister fd s') ∧
      Admits s (enforceConnectionLimitAfterRegister fd s') := by
  have hcl : ¬ (acceptedConnection fd peerEndpoint s.nextConnectionId).closing = true := nofun
  unfold enforceConnectionLimitAfterRegister
  rw [ha.find_self]
  dsimp only
  rw [if_neg hcl]
  split
  · exact ⟨h.accept ha, ha.admits⟩
  · exact h.closeAccepted ha (.silent rfl rfl rfl rfl rfl rfl rfl rfl) ha.find_self .connectionLimit

/-- A new entry of `clients_` whose header timer is armed. -/
theorem accepts_of_emplaced {t : Server} (hfree : s.find fd = none) (hne : s.listenFd ≠ fd)
    (ht : Unmoved { s with nextConnectionId := s.nextConnectionId + 1 } t) (n : Nat) :
    Accepts fd peerEndpoint now s (armHeaderTimeout fd now (setActiveConnectionCount n
      (emplaceClient fd { socket := some fd, peerEndpoint, connectionId := s.nextConnectionId } t))) := by
  have hnone : t.find fd = none := by
    rw [Server.find, ht.clients]
    exact hfree
  obtain ⟨tr, htr, hsilent⟩ := ht.trace
  rw [emplaceClient, hnone, armHeaderTimeout]
  have hfound (c : ClientConnection) :
      (setActiveConnectionCount n (t.put fd c)).find fd = some c := find_put ..
  rw [hfound]
  simp only [Bool.false_eq_true, if_false]
  have hsilent' : tr.filter (fun e => (life? e).isSome) = [] :=
    List.filter_eq_nil_iff.mpr fun e he => by simp [(hsilent e he).1]
  have htrace : s.trace ++ tr = t.trace := htr.symm
  refine ⟨hfree, hne, ?_, ?_,
    ⟨tr ++ [.armed s.nextConnectionId .kHeader now (now + kHeaderTimeout)], ?_, ?_, ?_⟩, ht.nextId,
    ht.listenFd, ht.queue, ht.inflight, ht.metric⟩
  · rw [← insert_insert, ← ht.clients]
    rfl
  · rw [← ht.heap]
    rfl
  · rw [← List.append_assoc, htrace]
    rfl
  · rw [List.filter_append, hsilent']
    rfl
  · intro amount inflight hmem
    rcases List.mem_append.mp hmem with hmem | hmem
    · exact (hsilent _ hmem).2 amount inflight rfl
    · cases List.mem_singleton.mp hmem

theorem registerClient_refines (h : Refines fd .rest s) (hfree : s.find fd = none)
    (hne : s.listenFd ≠ fd) (peerEndpoint : Bytes) (now : Time) :
    Refines fd .rest (registerClient fd peerEndpoint now s) ∧
      Admits s (registerClient fd peerEndpoint now s) := by
  refine enforceConnectionLimit_refines h (accepts_of_emplaced hfree hne ?_ _)
  refine ⟨rfl, rfl, ⟨_, rfl, fun e he => ?_⟩, rfl, rfl, rfl, rfl, rfl⟩
  obtain rfl := List.mem_singleton.mp he
  exact ⟨rfl, by simp⟩

/-! ## The token bucket -/

theorem Unmoved.findOrCreateIpBucket (ip : Bytes) (now : Time) (s : Server) :
    Unmoved s (findOrCreateIpBucket ip now s) := by
  unfold Core.findOrCreateIpBucket
  cases s.ipTokenBuckets.lookup ip with
  | none => exact .silent rfl rfl rfl rfl rfl rfl rfl rfl
  | some bucket => exact .silent rfl rfl rfl rfl rfl rfl rfl rfl

/-- Whatever the bucket says, no connection notices. -/
theorem checkIpRateLimit_spec (fd : Fd) (peerEndpoint : Bytes) :
    wp (checkIpRateLimitBeforeRegister fd peerEndpoint) (fun _ r' => Unmoved r.server r'.server) r := by
  unfold checkIpRateLimitBeforeRegister
  rw [wp_bind]
  apply wp_steadyClockNow
  intro now io
  simp only [wp_bind, wp_modifyServer, wp_get]
  have hcleaned : Unmoved r.server (cleanupExpiredIpBuckets now r.server) :=
    .silent rfl rfl rfl rfl rfl rfl rfl rfl
  have hbucket := hcleaned.trans
    (.findOrCreateIpBucket (extractIpFromPeerEndpoint peerEndpoint) now _)
  split
  · exact hbucket
  · simp only [wp_ite, wp_bind, wp_modifyServer, wp_pure]
    refine ⟨fun _ => ?_, fun _ => hbucket.trans (.silent rfl rfl rfl rfl rfl rfl rfl rfl)⟩
    apply (hbucket.trans (.recordRejectMetric 429 _)).trans
    refine (Unmoved.recordErrorMetric _).trans (.log fun e he => ?_)
    obtain ⟨⟨offered, answer⟩, -, rfl⟩ := List.mem_map.mp he
    exact ⟨rfl, by simp⟩

theorem registerAcceptedConnection_spec (h : Refines fd .rest s) (hfree : s.find fd = none)
    (hne : s.listenFd ≠ fd) (peerEndpoint : Bytes) (r : Round) :
    wp (registerAcceptedConnection fd peerEndpoint)
      (fun _ r' => Refines fd .rest r'.server ∧ Admits s r'.server) { r with server := s } := by
  unfold registerAcceptedConnection
  rw [wp_bind]
  apply wp_mono (checkIpRateLimit_spec fd peerEndpoint)
  intro b r' hr'
  have h' := h.unmoved hr'
  rw [wp_ite]
  constructor
  · intro _
    have hclosed : Unmoved r'.server (r'.server.log [.closedFd fd]) := by
      refine .log fun e he => ?_
      obtain rfl := List.mem_singleton.mp he
      exact ⟨rfl, by simp⟩
    exact ⟨h'.unmoved hclosed, (hr'.trans hclosed).admits⟩
  · intro _
    rw [wp_bind]
    apply wp_steadyClockNow
    intro now io
    have hfree' : r'.server.find fd = none := by
      rw [Server.find, hr'.clients]
      exact hfree
    exact (registerClient_refines h' hfree' (hr'.listenFd ▸ hne) peerEndpoint now).imp_right
      hr'.admits.trans

theorem Unmoved.countAccept (s : Server) : Unmoved s (countAccept s) :=
  .silent rfl rfl rfl rfl rfl rfl rfl rfl

/-- One turn of the loop on a socket that is not open yet. -/
theorem drainAcceptQueue_accepted {answers : List AcceptResult}
    (hfree : r.server.find fd = none) (hne : r.server.listenFd ≠ fd) :
    drainAcceptQueue (.accepted fd peerEndpoint :: answers) r =
      registerAcceptedConnection fd peerEndpoint
        { r with server := countAccept (r.server.log [.accepted fd peerEndpoint]) } >>=
          fun result => drainAcceptQueue answers result.2 := by
  rw [drainAcceptQueue]
  show (if _ then _ else _ : ServerM Unit) r = _
  rw [if_neg (by simp [hfree, hne.symm])]
  rfl

/-- The first failure of `accept4()`, if it is one that `TryAcceptOne` throws. -/
def acceptFault : List AcceptResult → Option Errno
  | [] => none
  | .failed e :: _ => if e = .eagain ∨ e = .eintr then none else some e
  | .accepted .. :: answers => acceptFault answers

/-- The loop ends with the error that `accept4()` failed with, or with the invariant. -/
theorem drainAcceptQueue_refines (answers : List AcceptResult) (h : Refines fd .rest r.server) :
    (acceptFault answers = none ∧ ∃ r', drainAcceptQueue answers r = .ok ((), r') ∧
        Refines fd .rest r'.server ∧ Admits r.server r'.server) ∨
      ∃ e, acceptFault answers = some e ∧
        drainAcceptQueue answers r = .error (.systemError "accept4() failed" e) := by
  induction answers generalizing r with
  | nil => exact .inl ⟨rfl, r, rfl, h, (Unmoved.refl _).admits⟩
  | cons answer answers ih =>
    cases answer with
    | failed errno =>
      cases errno with
      | eagain | eintr => exact .inl ⟨rfl, r, rfl, h, (Unmoved.refl _).admits⟩
      | econnaborted | emfile | enfile | other => exact .inr ⟨_, rfl, rfl⟩
    | accepted fd' peerEndpoint =>
      by_cases hopen : r.server.find fd' = none ∧ r.server.listenFd ≠ fd'
      · obtain ⟨hfree, hne⟩ := hopen
        have hlogged : Unmoved r.server
            (countAccept (r.server.log [.accepted fd' peerEndpoint])) := by
          refine (Unmoved.log fun e he => ?_).trans (.countAccept _)
          obtain rfl := List.mem_singleton.mp he
          exact ⟨rfl, by simp⟩
        have hfree' : (countAccept (r.server.log [.accepted fd' peerEndpoint])).find fd' = none := by
          rw [Server.find]
          exact hfree
        obtain ⟨_, r', hr', h', hadmits⟩ := (wp_iff _ _ _).mp
          (registerAcceptedConnection_spec (h.elsewhere.unmoved hlogged) hfree' hne peerEndpoint r)
        rw [drainAcceptQueue_accepted hfree hne, hr']
        rcases ih h'.elsewhere with ⟨hfine, r'', hr'', h'', hadmits'⟩ | hfailed
        · exact .inl ⟨hfine, r'', hr'', h'', (hlogged.admits.trans hadmits).trans hadmits'⟩
        · exact .inr hfailed
      · have hskip : drainAcceptQueue (.accepted fd' peerEndpoint :: answers) r =
            drainAcceptQueue answers r := by
          rw [drainAcceptQueue]
          show (if _ then _ else _ : ServerM Unit) r = _
          rw [if_pos]
          by_contra hcond
          simp only [Bool.or_eq_true, decide_eq_true_eq, not_or, Bool.not_eq_true,
            Option.isSome_eq_false_iff, Option.isNone_iff_eq_none] at hcond
          exact hopen ⟨hcond.1, fun e => hcond.2 e.symm⟩
        rw [hskip]
        exact ih h

end WebServer.Refine
