import WebServer.Kernel.MetricsLines
import WebServer.Scripts.MetricsReader

/-!
# The readers of the metrics log

The scripts read from `metrics.log` what the server has written.
-/

namespace WebServer.Properties

open WebServer.Net WebServer.Http WebServer.Core WebServer.Kernel WebServer.Scripts Records
  EventLoop

variable {l : EventLoop} {x : MetricsSample} {text : Bytes}

/-! ## Numbers -/

/-- Where no blanks are around a text, none are taken off. -/
theorem dropWhile_around {blank : UInt8 → Bool} (hfirst : ∀ b ∈ text.head?, blank b = false)
    (hlast : ∀ b ∈ text.getLast?, blank b = false) :
    ((text.dropWhile blank).reverse.dropWhile blank).reverse = text := by
  have hdrop {t : Bytes} (ht : ∀ b ∈ t.head?, blank b = false) : t.dropWhile blank = t := by
    cases t with
    | nil => rfl
    | cons b t => rw [List.dropWhile_cons, if_neg (by simp [ht b rfl])]
  have hback : ∀ b ∈ text.reverse.head?, blank b = false := by
    rwa [List.head?_reverse]
  rw [hdrop hfirst, hdrop hback, List.reverse_reverse]

theorem isSpace_of_not_blank {b : UInt8} (h : isBlank b = false) : isSpace b = false := by
  simp only [isBlank, Bool.or_eq_false_iff] at h
  rw [isSpace, h.1.1.1.1, h.1.1.1.2]
  rfl

theorem not_blank_signedDecimal (n : Int) : ∀ b ∈ signedDecimal n, isBlank b = false := by
  intro b hb
  rcases List.mem_append.mp hb with hb | hb
  · split at hb
    · obtain rfl := List.mem_singleton.mp hb
      decide
    · cases hb
  · exact isBlank_of_isDigit (isDigit_of_mem_decimal hb)

/-- A number that was printed is one group of digits. -/
theorem int_decimal (n : Nat) : (decimal n).splitOn 95 = [decimal n] ∧
    (decimal n).all isDigit = true ∧ digitsValue (decimal n) = n := by
  have hread := readDecimal_decimal n
  unfold readDecimal at hread
  split at hread
  · rename_i hdigits
    have hall := (Bool.and_eq_true_iff.mp hdigits).2
    refine ⟨List.splitOn_eq_singleton ?_, hall, Option.some.inj hread⟩
    intro hmem
    exact absurd (List.all_eq_true.mp hall 95 hmem) (by decide)
  · cases hread

/-- **Printing and reading a number.** -/
theorem int_signedDecimal (n : Int) : int (signedDecimal n) = .ok n := by
  obtain ⟨hgroup, hall, hvalue⟩ := int_decimal n.natAbs
  have hpos := decimal_ne_nil n.natAbs
  unfold int
  have hblank := not_blank_signedDecimal n
  rw [trim, dropWhile_around (fun b hb => isSpace_of_not_blank (hblank b (List.mem_of_head? hb)))
    fun b hb => isSpace_of_not_blank (hblank b (List.mem_of_getLast? hb))]
  by_cases hneg : n < 0
  · have hsign : signedDecimal n = 45 :: decimal n.natAbs := by
      rw [signedDecimal, if_pos hneg]
      rfl
    have habs : -(n.natAbs : Int) = n := by omega
    rw [hsign]
    generalize n.natAbs = k at *
    simp [hgroup, hall, hvalue, hpos, habs]
  · have hsign : signedDecimal n = decimal n.natAbs := by
      rw [signedDecimal, if_neg hneg]
      rfl
    obtain ⟨b, digits, hdigits⟩ := List.exists_cons_of_ne_nil hpos
    have hfirst : isDigit b = true :=
      List.all_eq_true.mp hall b (hdigits ▸ List.mem_cons_self)
    have hunsigned : b ≠ 45 ∧ b ≠ 43 := by
      constructor <;> (rintro rfl; revert hfirst; decide)
    have habs : (n.natAbs : Int) = n := by omega
    rw [hsign, hdigits]
    rw [hdigits] at hgroup hall hvalue
    generalize n.natAbs = k at *
    simp [hunsigned.1, hunsigned.2, hgroup, hall, hvalue, habs]

/-! ## Lines -/

theorem readable_fields (x : MetricsSample) :
    Readable isBlank 61 int signedDecimal x.fields where
  mark := by decide
  keys := by
    have hkeys : (x.fields.map Prod.fst).all
        (fun key => !key.contains 61 && key.all fun b => !isBlank b) = true := by
      unfold MetricsSample.fields
      simp only [List.map_cons, List.map_nil]
      decide +kernel
    intro field hfield
    have hkey := List.all_eq_true.mp hkeys field.1 (List.mem_map_of_mem hfield)
    simpa using hkey
  values := fun field _ => not_blank_signedDecimal field.2
  distinct := by
    unfold MetricsSample.fields
    simp only [List.map_cons, List.map_nil]
    decide +kernel
  inverse := int_signedDecimal

/-- A line without its line feed. -/
def body (x : MetricsSample) : Bytes := printRecord 32 61 signedDecimal x.fields

theorem line_eq (x : MetricsSample) : x.line = body x ++ [10] := rfl

theorem readTokens_body (x : MetricsSample) : readTokens (body x) = .ok x.fields :=
  readRecord_printRecord (readable_fields x) rfl

/-- Every line boundary is a blank, and the blanks of a line are no boundaries. -/
theorem not_boundary_body (x : MetricsSample) : ∀ b ∈ body x, isLineBoundary b = false := by
  have hboundary : ∀ b : UInt8, isLineBoundary b = true → isBlank b = true := by
    intro b h
    simp only [isLineBoundary, isBlank, Bool.or_eq_true, Bool.and_eq_true, decide_eq_true_eq,
      UInt8.le_iff_toNat_le, UInt8.reduceToNat] at h ⊢
    omega
  intro b hb
  rcases (readable_fields x).mem_printRecord hb with rfl | hb
  · rfl
  · by_contra hno
    rw [hboundary b (by simpa using hno)] at hb
    cases hb

theorem splitlinesFrom_body {line : Bytes} (h : ∀ b ∈ text, isLineBoundary b = false)
    (rest : Bytes) :
    splitlinesFrom line (text ++ 10 :: rest) = (line ++ text) :: splitlinesFrom [] rest := by
  induction text generalizing line with
  | nil =>
    rw [List.append_nil]
    rfl
  | cons b text ih =>
    have hb := h b List.mem_cons_self
    have hreturn : b ≠ 13 := by
      rintro rfl
      cases hb
    have hnext : splitlinesFrom (line ++ [b]) (text ++ 10 :: rest) = _ :=
      ih fun b' h' => h b' (List.mem_cons_of_mem _ h')
    rw [List.cons_append, splitlinesFrom, hb, hnext, List.append_assoc]
    · rfl
    · exact fun _ h _ => hreturn h

/-- The text of a log is cut into the lines that were written. -/
theorem splitlines_text (log : MetricsLog) : splitlines log.text = log.samples.map body := by
  unfold MetricsLog.text splitlines
  induction log.samples with
  | nil => rfl
  | cons x samples ih =>
    rw [List.flatMap_cons, line_eq, List.append_assoc, List.singleton_append,
      splitlinesFrom_body (not_boundary_body x), ih]
    rfl

/-- A line is no blank line, and there is nothing around it. -/
theorem strip_body (x : MetricsSample) : strip (body x) = body x ∧ body x ≠ [] := by
  have hwords := (readable_fields x).isWord
  refine ⟨dropWhile_around ?_ ?_, List.cons_ne_nil _ _⟩
  · exact fun b hb => head?_intercalate hwords hb
  · exact fun b hb => getLast?_intercalate hwords hb

/-! ## Reading -/

theorem foldlM_readLine (xs : List MetricsSample) (samples : List Sample) :
    (xs.map body).foldlM readLine samples = .ok (samples ++ xs.map MetricsSample.fields) := by
  induction xs generalizing samples with
  | nil => exact congrArg Except.ok (List.append_nil _).symm
  | cons x xs ih =>
    obtain ⟨hstrip, hne⟩ := strip_body x
    have hread : readLine samples (body x) = .ok (samples ++ [x.fields]) := by
      unfold readLine
      rw [hstrip]
      dsimp only
      rw [if_neg hne, readTokens_body]
      rfl
    rw [List.map_cons, List.foldlM_cons, hread]
    show List.foldlM _ (samples ++ [x.fields]) _ = _
    rw [ih, List.append_assoc]
    rfl

theorem readMetricsSamples_eq (log : MetricsLog) :
    readMetricsSamples log.text = .ok (log.samples.map MetricsSample.fields) := by
  rw [readMetricsSamples, splitlines_text]
  exact foldlM_readLine log.samples []

theorem readLatestMetrics_eq (log : MetricsLog) :
    readLatestMetrics log.text = .ok ((log.samples.getLast?.map MetricsSample.fields).getD []) := by
  have hlines : ((splitlines log.text).filter (strip · ≠ [])).map strip = log.samples.map body := by
    rw [splitlines_text, List.filter_map, List.filter_eq_self.mpr, List.map_map]
    · exact List.map_congr_left fun x _ => (strip_body x).1
    · intro x _
      simp [(strip_body x).1, (strip_body x).2]
  unfold readLatestMetrics
  dsimp only
  rw [hlines, List.getLast?_map]
  cases log.samples.getLast? with
  | none => rfl
  | some x => exact readTokens_body x

/-- **Round trip.**  Whatever the log holds, `wrk_benchmark.py` reads the fields of every line
and `sanitizer_smoke.py` those of the last one, key by key and in order. -/
theorem metricsReaders_roundTrip (log : MetricsLog) :
    readMetricsSamples log.text = .ok (log.samples.map MetricsSample.fields) ∧
      readLatestMetrics log.text =
        .ok ((log.samples.getLast?.map MetricsSample.fields).getD []) :=
  ⟨readMetricsSamples_eq log, readLatestMetrics_eq log⟩

/-! ## Deltas -/

def atOrAfter (t : Int) (x : MetricsSample) : Bool := decide (t ≤ x.ts)

theorem sampleAtOrAfter_fields {samples : List MetricsSample} {t : Int}
    (h : samples.find? (atOrAfter t) = some x) :
    sampleAtOrAfter t (samples.map MetricsSample.fields) = .ok x.fields := by
  induction samples with
  | nil => cases h
  | cons y samples ih =>
    have hts : item y.fields (ascii "ts") = .ok y.ts := rfl
    rw [List.map_cons, sampleAtOrAfter, hts]
    show (if t ≤ y.ts then _ else _) = _
    by_cases hy : atOrAfter t y = true
    · rw [List.find?_cons_of_pos hy] at h
      obtain rfl := Option.some.inj h
      rw [if_pos (of_decide_eq_true hy)]
      rfl
    · rw [List.find?_cons_of_neg hy] at h
      rw [if_neg fun hts => hy (decide_eq_true hts)]
      exact ih h

/-- The weaker condition is met first, or by the same element. -/
theorem find?_order {α : Type} {R : α → α → Prop} {p q : α → Bool} {xs : List α} {w e : α}
    (hle : ∀ x, q x = true → p x = true) (hrefl : ∀ x, R x x) (hR : xs.Pairwise R)
    (hw : xs.find? p = some w) (he : xs.find? q = some e) : R w e := by
  induction xs with
  | nil => cases hw
  | cons y xs ih =>
    obtain ⟨hfirst, hrest⟩ := List.pairwise_cons.mp hR
    by_cases hp : p y = true
    · rw [List.find?_cons_of_pos hp] at hw
      obtain rfl := Option.some.inj hw
      by_cases hq : q y = true
      · rw [List.find?_cons_of_pos hq] at he
        obtain rfl := Option.some.inj he
        exact hrefl y
      · rw [List.find?_cons_of_neg hq] at he
        exact hfirst e (List.mem_of_find?_eq_some he)
    · rw [List.find?_cons_of_neg hp] at hw
      rw [List.find?_cons_of_neg fun hq => hp (hle y hq)] at he
      exact ih hrest hw he

/-- The differences between two lines. -/
def deltas (w e : MetricsSample) : Deltas where
  acceptDelta := e.metrics.acceptTotal - w.metrics.acceptTotal
  requestsDelta := e.metrics.requestsTotal - w.metrics.requestsTotal
  rejectDelta := e.metrics.rejectTotal - w.metrics.rejectTotal
  errorsDelta := e.metrics.errorsTotal - w.metrics.errorsTotal
  endSampleTsMs := e.ts
  warmupSampleTsMs := w.ts
  rssDeltaKb := e.rssKb - w.rssKb

theorem runBenchmarkOnce_text {log : MetricsLog} {warmupMs endMs : Int} {w e : MetricsSample}
    (hw : log.samples.find? (atOrAfter warmupMs) = some w)
    (he : log.samples.find? (atOrAfter endMs) = some e) :
    runBenchmarkOnce warmupMs endMs log.text = .ok (deltas w e) := by
  unfold runBenchmarkOnce
  rw [readMetricsSamples_eq]
  simp only [bind, Except.bind, sampleAtOrAfter_fields hw, sampleAtOrAfter_fields he]
  rfl

/-- **The measurement.**  Once the log has reached the end of the measurement,
`run_benchmark_once` gets the differences of two of its lines.  None of them is negative, and
every reject is among the errors. -/
theorem runBenchmarkOnce_counts {warmupMs endMs : Int} (h : Looped l) (hle : warmupMs ≤ endMs)
    (hend : ∃ x ∈ l.log.samples, endMs ≤ x.ts) :
    ∃ w ∈ l.log.samples, ∃ e ∈ l.log.samples, warmupMs ≤ w.ts ∧ endMs ≤ e.ts ∧
      runBenchmarkOnce warmupMs endMs l.log.text = .ok (deltas w e) ∧
      0 ≤ (deltas w e).acceptDelta ∧ 0 ≤ (deltas w e).requestsDelta ∧
      0 ≤ (deltas w e).rejectDelta ∧ (deltas w e).rejectDelta ≤ (deltas w e).errorsDelta := by
  have hmet {t : Int} (ht : ∃ x ∈ l.log.samples, t ≤ x.ts) :
      ∃ x, l.log.samples.find? (atOrAfter t) = some x := by
    obtain ⟨x, hx, hts⟩ := ht
    exact Option.isSome_iff_exists.mp (List.find?_isSome.mpr ⟨x, hx, decide_eq_true hts⟩)
  obtain ⟨e, he⟩ := hmet hend
  obtain ⟨w, hw⟩ := hmet (hend.imp fun x hx => ⟨hx.1, hle.trans hx.2⟩)
  -- the boundary that is earlier is met first, even if the wall clock was set back in between
  have hearlier (x : MetricsSample) : atOrAfter endMs x = true → atOrAfter warmupMs x = true :=
    fun hx => decide_eq_true (hle.trans (of_decide_eq_true hx))
  have hrefl (x : MetricsSample) : Continues x.metrics x.metrics :=
    ⟨fun _ => Nat.le_refl _, by simp, by simp, by simp⟩
  have hcontinues := find?_order hearlier hrefl (Looped.continues h) hw he
  have haccepts : w.metrics.acceptTotal ≤ e.metrics.acceptTotal := hcontinues.grow .accepts
  have hrequests : w.metrics.requestsTotal ≤ e.metrics.requestsTotal := hcontinues.grow .requests
  have hrejects : w.metrics.rejectTotal ≤ e.metrics.rejectTotal := hcontinues.grow .rejects
  have herrors : w.metrics.errorsTotal ≤ e.metrics.errorsTotal := hcontinues.grow .errors
  have herred := hcontinues.erred
  have hwarmup : atOrAfter warmupMs w = true := List.find?_some hw
  have hreached : atOrAfter endMs e = true := List.find?_some he
  refine ⟨w, List.mem_of_find?_eq_some hw, e, List.mem_of_find?_eq_some he,
    of_decide_eq_true hwarmup, of_decide_eq_true hreached, runBenchmarkOnce_text hw he, ?_⟩
  unfold deltas
  dsimp only
  omega

/-- Three seconds.  A client comes in each of the first two, one request is answered in the second
and one refused in the third. -/
def measuredTurns : List LoopTurn :=
  let turn (k : Nat) (calls : List (PollEvent × Io)) : LoopTurn :=
    { idleSecond k with
      firstReading := { now := seconds k, unixMs := 1000 * k }
      wait := .reported (calls.map fun call => (call.1, { call.2 with now := seconds (k + 1) }))
      secondReading := { now := seconds (k + 1), unixMs := 1000 * (k + 1) } }
  let arrival (fd : Fd) : PollEvent × Io :=
    ({ fd := 3, events := { epollin := true } },
      { accepts := [.accepted fd (ascii "10.0.0.1:40000")] })
  let request (fd : Fd) (data : Bytes) : PollEvent × Io :=
    ({ fd, events := { epollin := true } }, { reads := [.got data], writes := [.wrote 1000] })
  [turn 0 [arrival 5], turn 1 [arrival 6, request 5 (ascii "GET / HTTP/1.1\r\n\r\n")],
    turn 2 [request 6 (ascii "POST / HTTP/1.1\r\n\r\n")]]

/-- Measured from the first line to the third: one accept, one request and one reject more. -/
theorem runBenchmarkOnce_counts_twoClients : ∃ l, Looped l ∧
    ((∃ x ∈ l.log.samples, 3000 ≤ x.ts) ∧
      l.log.samples.map (fun x => (x.ts, x.metrics.acceptTotal)) =
        [(1000, 1), (2000, 2), (3000, 2)] ∧
      (runBenchmarkOnce 1000 3000 l.log.text).toOption.map (fun d =>
        (d.acceptDelta, d.requestsDelta, d.rejectDelta, d.errorsDelta)) = some (1, 1, 1, 1)) ∧
    ∃ w ∈ l.log.samples, ∃ e ∈ l.log.samples, 1000 ≤ w.ts ∧ 3000 ≤ e.ts ∧
      runBenchmarkOnce 1000 3000 l.log.text = .ok (deltas w e) ∧
      0 ≤ (deltas w e).acceptDelta ∧ 0 ≤ (deltas w e).requestsDelta ∧
      0 ≤ (deltas w e).rejectDelta ∧ (deltas w e).rejectDelta ≤ (deltas w e).errorsDelta := by
  obtain ⟨checked, read, l, h, hend, hlines, w, hw, e, he, hdeltas⟩ :
      ∃ checked read l, Timed (seconds 9) checked read l ∧
        (∃ x ∈ l.log.samples, 3000 ≤ x.ts) ∧
        l.log.samples.map (fun x => (x.ts, x.metrics.acceptTotal)) =
          [(1000, 1), (2000, 2), (3000, 2)] ∧
        ∃ w ∈ l.log.samples.find? (atOrAfter 1000), ∃ e ∈ l.log.samples.find? (atOrAfter 3000),
          ((deltas w e).acceptDelta, (deltas w e).requestsDelta, (deltas w e).rejectDelta,
            (deltas w e).errorsDelta) = (1, 1, 1, 1) :=
    exists_timed measuredTurns (by decide +kernel)
  have hmeasured := runBenchmarkOnce_text hw he
  refine ⟨l, h.looped, ⟨hend, hlines, ?_⟩, runBenchmarkOnce_counts h.looped (by decide) hend⟩
  rw [hmeasured]
  exact congrArg some hdeltas

end WebServer.Properties
