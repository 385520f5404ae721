import WebServer.Life.Boundary
import WebServer.Refine.Reachable

/-!
# No refusal below the header limit

A connection is answered `431` only for the bytes behind its last answered request, and only
if no header block that is within the limit begins there.
-/

namespace WebServer.Properties

open WebServer.Net WebServer.Http WebServer.Core WebServer.Life WebServer.Refine WeakestPre

variable {fd : Fd} {id : Nat} {c : ClientConnection} {r : Round} {s : Server} {data input : Bytes}

/-- **No false `431`.**  On a connection that was answered `431`, more bytes than the limit
follow the last answered request, with no `CRLFCRLF` that ends within the limit; whatever the
peer sends next, the header block that begins there is longer than the limit. -/
theorem rejected_over_limit (hs : Reachable s) (h : 431 ∈ rejections (history id s.trace)) :
    ∃ rest, behindRequests (answered (history id s.trace)) (received (history id s.trace)) =
        some rest ∧ kMaxHeaderBytes < rest.length ∧ ¬ crlfcrlf <:+: rest.take kMaxHeaderBytes ∧
      ∀ more header, IsBlock header → header <+: rest ++ more → kMaxHeaderBytes < header.length := by
  rcases life_of_reachable hs id with hnone | ⟨fd, hended⟩ | ⟨fd, c, hf, rfl⟩
  · rw [hnone] at h
    exact absurd h List.not_mem_nil
  · obtain ⟨rest, hrest, hover⟩ := hended.overLimit h
    exact ⟨rest, hrest, hover.1, hover.2, fun more header hheader => hover.block hheader⟩
  · rw [(run_of_reachable hs hf).rejections] at h
    exact absurd h List.not_mem_nil

/-! ## A header that does not end -/

/-- A connection that has sent these bytes of a header and nothing else. -/
structure Filling (c : ClientConnection) (input : Bytes) : Prop where
  storage : c.inputBuffer.storage = input
  output : c.outputBuffer = []
  waiting : c.waitingForRequestBody = false
  keep : c.closeAfterWrite = false
  ready : c.readyForRead = false
  opened : c.closing = false

theorem find?_replicate (n : Nat) : Search.find? crlfcrlf (List.replicate n 97) = none := by
  rw [← Option.not_isSome_iff_eq_none, Search.find?_isSome_iff]
  intro h
  have hmem : (13 : UInt8) ∈ List.replicate n 97 := h.subset (by decide)
  exact absurd (List.eq_of_mem_replicate hmem) (by decide)

/-- A `read()` puts its bytes into the buffer. -/
theorem readTurn_append {next : ServerM Unit} {Q : Unit → Round → Prop}
    (hf : r.server.find fd = some c) (hcl : c.closing = false) (hne : data ≠ [])
    (hchunk : data.length ≤ kReadChunkSize) (hbudget : data.length ≤ r.budget.readRemaining)
    (hroom : overBudget r.server.globalInflightBytes data.length = false)
    (hnext : ∀ r', r'.server.find fd = some { c with inputBuffer := c.inputBuffer.append data } →
      r'.server.globalInflightBytes = r.server.globalInflightBytes + data.length →
      r'.budget.readRemaining = r.budget.readRemaining - data.length →
      wp (processChunk fd) (fun goOn r₁ => (goOn = false → Q () r₁) ∧ (goOn = true →
        (r₁.server.find fd).isSome = true ∧ r₁.budget.readRemaining ≠ 0 ∧ wp next Q r₁)) r') :
    wp (readTurn fd (.got data) next) Q r := by
  have hopen : ¬ c.closing = true := by simp [hcl]
  have hpos : 0 < data.length := List.length_pos_iff.mpr hne
  have hremaining : ¬ r.budget.readRemaining = 0 := by omega
  have hclip : ReadResult.clip (min kReadChunkSize r.budget.readRemaining) (.got data) =
      .got data := by
    rw [ReadResult.clip, List.take_of_length_le (Nat.le_min.mpr ⟨hchunk, hbudget⟩)]
  obtain ⟨b, rest, rfl⟩ := List.exists_cons_of_ne_nil hne
  unfold readTurn
  simp only [wp_bind, wp_findClient, hf, if_neg hopen, wp_get, if_neg hremaining, hclip,
    wp_modifyServer]
  unfold receive
  simp only [wp_bind, wp_get, wp_subSize, wp_modify]
  refine ⟨hbudget, ?_⟩
  unfold appendToInputBuffer
  rw [if_neg (by simp), wp_bind]
  have hf' : (r.server.log [.read c (.got (b :: rest))]).find fd = some c := hf
  obtain ⟨t, ht⟩ : ∃ t, t = (r.server.log [.read c (.got (b :: rest))]).log
      [.reserved (some c) .inputAppend (b :: rest).length r.server.globalInflightBytes] := ⟨_, rfl⟩
  have hfound : t.find fd = some c := ht ▸ hf
  have hinflight : t.globalInflightBytes = r.server.globalInflightBytes := ht ▸ rfl
  refine wp_tryReserveInflightBytes hf' (by simp) ht (fun _ => ?_) fun hover _ _ => ?_
  · simp only [Bool.not_true, Bool.false_eq_true, if_false, wp_bind, wp_modifyServer, wp_pure]
    refine wp_mono (hnext _ ?_ ?_ rfl) fun goOn r₁ h => ?_
    · rw [update_eq hfound]
      exact find_put ..
    · rw [update_eq hfound, ← hinflight]
      rfl
    · cases goOn with
      | false => exact h.1 rfl
      | true =>
        obtain ⟨hfound, hleft, hnext⟩ := h.2 rfl
        obtain ⟨d, hd⟩ := Option.isSome_iff_exists.mp hfound
        simp only [Bool.not_true, Bool.false_eq_true, if_false, wp_bind, wp_findClient, hd, wp_get,
          if_neg hleft]
        exact hnext
  · exact absurd (hroom.symm.trans hover) Bool.false_ne_true

theorem Filling.incomplete (h : Filling c input) (hno : Search.find? crlfcrlf input = none) :
    c.inputBuffer.hasCompleteHeader = false := by
  rw [DynamicBuffer.hasCompleteHeader, DynamicBuffer.findHeaderEnd, h.storage, hno]
  rfl

theorem Filling.exceeds_iff (h : Filling c input) (hno : Search.find? crlfcrlf input = none) :
    c.inputBuffer.headerExceedsLimit kMaxHeaderBytes = true ↔ kMaxHeaderBytes < input.length := by
  rw [DynamicBuffer.headerExceedsLimit, DynamicBuffer.findHeaderEnd, h.storage, hno]
  simp [DynamicBuffer.size, h.storage]

theorem headerLoop_incomplete {turns : Nat} {Q : Bool → Round → Prop}
    (hf : r.server.find fd = some c) (hc : Filling c input)
    (hno : Search.find? crlfcrlf input = none) (h : Q true r) : wp (headerLoop fd turns) Q r := by
  have hopen : ¬ c.closing = true := by simp [hc.opened]
  cases turns with
  | zero => exact h
  | succ turns =>
    unfold headerLoop
    simp only [wp_bind, wp_findClient, hf, if_neg hopen, hc.incomplete hno, Bool.not_false, if_true,
      wp_pure]
    exact h

theorem settleConnection_unfinished {Q : Bool → Round → Prop} (hf : r.server.find fd = some c)
    (hc : Filling c input) (hno : Search.find? crlfcrlf input = none) (hne : input ≠ [])
    (hnext : ∀ r', r'.server.find fd = some (rearm .kHeader c) →
      r'.server.globalInflightBytes = r.server.globalInflightBytes →
      r'.budget = r.budget → Q true r') : wp (settleConnection fd) Q r := by
  have hopen : ¬ c.closing = true := by simp [hc.opened]
  have hfull : c.inputBuffer.empty = false := by
    rw [Bool.eq_false_iff]
    exact fun h => hne (hc.storage.symm.trans (DynamicBuffer.empty_iff.mp h))
  have hlog : (r.server.log [.settled c]).find fd = some c := hf
  unfold settleConnection
  simp only [wp_bind, wp_findClient, hf, if_neg hopen, wp_modifyServer, hc.waiting, hc.output,
    hc.incomplete hno, hc.keep, hc.ready, hfull, Bool.false_eq_true, if_false, decide_true,
    Bool.not_false, Bool.and_true, if_true, Bool.and_self, Bool.and_false]
  refine wp_steadyClockNow fun now io => ?_
  have harm := Moves.armHeader hlog hc.opened now
  refine hnext _ ?_ ?_ rfl
  · exact (Moves.unmoved harm.find_self (.updateClientPollMask fd _)).find_self
  · have hpoll := Unmoved.updateClientPollMask fd (armHeaderTimeout fd now (r.server.log [.settled c]))
    refine hpoll.inflight.trans ?_
    unfold armHeaderTimeout
    rw [hlog]
    dsimp only
    rw [if_neg hopen]
    rfl

/-- The bytes of a header that is within the limit and does not end stay in the buffer. -/
theorem processChunk_unfinished {Q : Bool → Round → Prop} (hf : r.server.find fd = some c)
    (hc : Filling c input) (hno : Search.find? crlfcrlf input = none) (hne : input ≠ [])
    (hlimit : input.length ≤ kMaxHeaderBytes)
    (hnext : ∀ r', r'.server.find fd = some (rearm .kHeader c) →
      r'.server.globalInflightBytes = r.server.globalInflightBytes →
      r'.budget = r.budget → Q true r') : wp (processChunk fd) Q r := by
  have hwaits : ¬ c.waitingForRequestBody = true := by simp [hc.waiting]
  have hshort : c.inputBuffer.headerExceedsLimit kMaxHeaderBytes = false := by
    rw [Bool.eq_false_iff, ne_eq, hc.exceeds_iff hno]
    omega
  unfold processChunk checkHeaderLimit processBufferedHeaders
  simp only [wp_bind, wp_findClient, hf, if_neg hwaits, wp_modifyServer, hshort, Bool.not_false,
    if_true, wp_pure, Bool.not_true, Bool.false_eq_true, if_false]
  have hlog : (r.server.log [.limitChecked c]).find fd = some c := hf
  refine headerLoop_incomplete hlog hc hno ?_
  simp only [Bool.not_true, Bool.false_eq_true, if_false]
  exact settleConnection_unfinished hlog hc hno hne hnext

/-- A header that grows beyond the limit is answered `431`. -/
theorem processChunk_overLimit (hf : r.server.find fd = some c) (hc : Filling c input)
    (hno : Search.find? crlfcrlf input = none) (hlimit : kMaxHeaderBytes < input.length) :
    wp (processChunk fd) (fun b r' => b = false ∧ .rejected c 431 ∈ r'.server.trace) r := by
  have hwaits : ¬ c.waitingForRequestBody = true := by simp [hc.waiting]
  have hlog : (r.server.log [.limitChecked c]).find fd = some c := hf
  unfold processChunk checkHeaderLimit
  simp only [wp_bind, wp_findClient, hf, if_neg hwaits, wp_modifyServer,
    (hc.exceeds_iff hno).mpr hlimit, Bool.not_true, Bool.false_eq_true, if_false]
  refine wp_sendErrorResponseAndClose hlog fun script io => ?_
  simp only [wp_pure, Bool.not_false, if_true]
  obtain ⟨tr, htr, hlives, -⟩ := (Moves.refused hlog hc.opened 431 script).trace
  refine ⟨trivial, htr ▸ List.mem_append_right _ ?_⟩
  have hmem : .rejected c 431 ∈ tr.filter fun e => (life? e).isSome := by
    rw [hlives]
    exact List.mem_cons_self
  exact List.mem_of_mem_filter hmem

theorem Filling.append (h : Filling c input) (data : Bytes) :
    Filling { c with inputBuffer := c.inputBuffer.append data } (input ++ data) :=
  ⟨congrArg (· ++ data) h.storage, h.output, h.waiting, h.keep, h.ready, h.opened⟩

theorem Filling.rearm (h : Filling c input) : Filling (rearm .kHeader c) input :=
  ⟨h.storage, h.output, h.waiting, h.keep, h.ready, h.opened⟩

theorem overBudget_of_le {inflight n : Nat} (h : inflight + n ≤ kMaxInflightBytes) :
    overBudget inflight n = false := by
  simp only [overBudget, Bool.or_eq_false_iff, decide_eq_false_iff_not]
  omega

/-- One read of a header that does not end. -/
theorem readTurn_unfinished {n m : Nat} {next : ServerM Unit} {Q : Unit → Round → Prop}
    (hf : r.server.find fd = some c) (hc : Filling c (List.replicate n 97)) (hm : 0 < m)
    (hchunk : m ≤ kReadChunkSize) (hlimit : n + m ≤ kMaxHeaderBytes)
    (hbudget : m < r.budget.readRemaining)
    (hroom : r.server.globalInflightBytes + m ≤ kMaxInflightBytes)
    (hnext : ∀ r' c', r'.server.find fd = some c' → Filling c' (List.replicate (n + m) 97) →
      c'.connectionId = c.connectionId →
      r'.server.globalInflightBytes = r.server.globalInflightBytes + m →
      r'.budget.readRemaining = r.budget.readRemaining - m → wp next Q r') :
    wp (readTurn fd (.got (List.replicate m 97)) next) Q r := by
  have hlen : (List.replicate m (97 : UInt8)).length = m := List.length_replicate
  have happend : List.replicate n (97 : UInt8) ++ List.replicate m 97 = List.replicate (n + m) 97 :=
    List.replicate_append_replicate
  have hc' := hc.append (List.replicate m 97)
  rw [happend] at hc'
  have hne (k : Nat) (hk : 0 < k) : List.replicate k (97 : UInt8) ≠ [] := by
    rw [ne_eq, List.replicate_eq_nil_iff]
    omega
  refine readTurn_append hf hc.opened (hne m hm) (by omega) (by omega)
    (overBudget_of_le (by omega)) fun r₁ hf₁ hinflight hremaining => ?_
  rw [hlen] at hinflight hremaining
  refine processChunk_unfinished hf₁ hc' (find?_replicate _) (hne _ (by omega)) (by simpa using hlimit)
    fun r₂ hf₂ hinflight₂ hbudget₂ => ⟨fun h => absurd h.symm Bool.false_ne_true, fun _ =>
      ⟨by rw [hf₂]; rfl, ?_, ?_⟩⟩
  · rw [hbudget₂]
    omega
  · exact hnext r₂ _ hf₂ hc'.rearm rfl (hinflight₂.trans hinflight) (hbudget₂ ▸ hremaining)

/-- 8193 bytes of one header, in three reads. -/
def endlessHeader : List ReadResult :=
  [.got (List.replicate 4096 97), .got (List.replicate 4096 97), .got (List.replicate 1 97)]

theorem readLoop_endlessHeader (hf : r.server.find fd = some c)
    (hc : Filling c (List.replicate 0 97)) (hbudget : r.budget = {})
    (hroom : r.server.globalInflightBytes = 0) :
    wp (readLoop fd endlessHeader) (fun _ r' => ∃ d, d.connectionId = c.connectionId ∧
      .rejected d 431 ∈ r'.server.trace) r := by
  have hremaining : r.budget.readRemaining = 262144 := hbudget ▸ rfl
  have hmax : kMaxInflightBytes = 536870912 := rfl
  refine readTurn_unfinished hf hc (by decide) (by decide) (by decide) (by omega) (by omega)
    fun r₁ c₁ hf₁ hc₁ hid₁ hinflight₁ hremaining₁ => ?_
  refine readTurn_unfinished hf₁ hc₁ (by decide) (by decide) (by decide) (by omega) (by omega)
    fun r₂ c₂ hf₂ hc₂ hid₂ hinflight₂ hremaining₂ => ?_
  refine readTurn_append hf₂ hc₂.opened (by decide) (by decide) ?_ (overBudget_of_le ?_)
    fun r₃ hf₃ _ _ => ?_
  · rw [List.length_replicate]
    omega
  · rw [List.length_replicate]
    omega
  · have hc₃ := hc₂.append (List.replicate 1 97)
    rw [List.replicate_append_replicate] at hc₃
    refine wp_mono (processChunk_overLimit hf₃ hc₃ (find?_replicate _) ?_) fun b r₄ h => ?_
    · rw [List.length_replicate]
      decide
    · have hid : ({ c₂ with inputBuffer := c₂.inputBuffer.append (List.replicate 1 97) } :
          ClientConnection).connectionId = c.connectionId := hid₂.trans hid₁
      exact ⟨fun _ => ⟨_, hid, h.2⟩, fun ht => absurd (h.1.symm.trans ht) Bool.false_ne_true⟩

/-- A connection that has sent nothing. -/
def silentClient : SampleRun fun s => (s.find 5).isSome = true ∧ 5 ≠ s.listenFd ∧
    s.globalInflightBytes = 0 ∧ (connectionAt s 5).connectionId = 1 ∧
    (connectionAt s 5).inputBuffer.storage = [] ∧ (connectionAt s 5).outputBuffer = [] ∧
    (connectionAt s 5).waitingForRequestBody = false ∧
    (connectionAt s 5).closeAfterWrite = false ∧ (connectionAt s 5).readyForRead = false ∧
    (connectionAt s 5).closing = false ∧ (connectionAt s 5).idleArmed = false where
  iterations := [accepting 3 5 0]
  holds := by decide +kernel

/-- Its header does not end. -/
theorem rejected_silentClient : ∃ s, Reachable s ∧ 431 ∈ rejections (history 1 s.trace) := by
  obtain ⟨hfound, hlisten, hinflight, hid, hin, hout, hw, hkeep, hready, hcl, hidle⟩ :=
    silentClient.holds_final
  have hf := find_connectionAt hfound
  have hreach := silentClient.reachable
  generalize connectionAt silentClient.final 5 = c at *
  generalize silentClient.final = s at *
  have hopen : ¬ c.closing = true := by simp [hcl]
  have hcall : wp (handlePollEvent { fd := 5, events := { epollin := true } })
      (fun _ r' => ∃ d, d.connectionId = c.connectionId ∧ .rejected d 431 ∈ r'.server.trace)
      { server := s, io := { reads := endlessHeader } } := by
    unfold handlePollEvent handleClientEvent handleReadable readFromClient
    simp only [wp_bind, wp_get, wp_findClient, hf, if_neg hlisten, if_neg hopen, hout, hidle,
      Bool.or_self, Bool.false_eq_true, if_false, ne_eq, not_true_eq_false, Bool.not_true]
    exact readLoop_endlessHeader hf ⟨hin, hout, hw, hkeep, hready, hcl⟩ rfl hinflight
  obtain ⟨a, r', hrun, d, hdid, hmem⟩ := (wp_iff _ _ _).mp hcall
  have hstep : runCall (.event { fd := 5, events := { epollin := true } }
      { reads := endlessHeader }) s = .ok r'.server := by
    rw [runCall, runHandler, hrun]
    rfl
  refine ⟨r'.server, hreach.step _ hstep, List.mem_flatMap.mpr ⟨.rejected d 431, ?_, ?_⟩⟩
  · exact List.mem_filter.mpr ⟨hmem, decide_eq_true (congrArg some (hdid.trans hid))⟩
  · exact List.mem_singleton_self 431

theorem rejected_over_limit_silentClient : ∃ s, Reachable s ∧ ∃ rest,
    behindRequests (answered (history 1 s.trace)) (received (history 1 s.trace)) = some rest ∧
      kMaxHeaderBytes < rest.length := by
  obtain ⟨s, hs, hrejected⟩ := rejected_silentClient
  obtain ⟨rest, hrest, hlen, -⟩ := rejected_over_limit hs hrejected
  exact ⟨s, hs, rest, hrest, hlen⟩

end WebServer.Properties
