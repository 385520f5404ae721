import WebServer.Http.Parser
import WebServer.Http.Response
import WebServer.Core.State

/-!
# The metrics log

`InitializeMetricsLogging`, `MaybeWriteMetricsLog` and `ReadCurrentRssKb` of
`core/server.cpp`, and the text of `metrics.log`.
-/

namespace WebServer.Core

open WebServer.Net WebServer.Http

def kMetricsLogInterval : Time := seconds 1

/-! ## `/proc/self/status` -/

/-- The number `sscanf` reads for `%llu`: blanks, a sign, digits. -/
def scanUnsigned (text : Bytes) : Option Nat :=
  let text := text.dropWhile isSpace
  let negative := text.head? = some 45
  let text := if text.head? = some 43 || text.head? = some 45 then text.tail else text
  let digits := text.takeWhile isDigit
  if digits = [] then none
  else if 2 ^ 64 ≤ digitsValue digits then some (2 ^ 64 - 1)
  else if negative then some ((2 ^ 64 - digitsValue digits) % 2 ^ 64)
  else some (digitsValue digits)

/-- `status` is the text of `/proc/self/status`, if it can be opened. -/
def readCurrentRssKb (status : Option Bytes) : Nat :=
  match status with
  | none => 0
  | some text =>
    match (text.splitOn 10).find? (ascii "VmRSS:").isPrefixOf with
    | none => 0
    | some line => (scanUnsigned (line.drop (ascii "VmRSS:").length)).getD 0

/-! ## Lines -/

/-- What one line of `metrics.log` reports. -/
structure MetricsSample where
  ts : Int
  uptimeS : Nat
  rssKb : Nat
  metrics : Metrics
  deriving DecidableEq, Repr

/-- A signed number as `operator<<` prints it. -/
def signedDecimal (n : Int) : Bytes := (if n < 0 then [45] else []) ++ decimal n.natAbs

namespace MetricsSample

/-- The keys of a line with their values, in the order they are written. -/
def fields (x : MetricsSample) : List (Bytes × Int) :=
  [(ascii "ts", x.ts), (ascii "uptime_s", x.uptimeS), (ascii "rss_kb", x.rssKb),
    (ascii "errors_total", x.metrics.errorsTotal), (ascii "accept_total", x.metrics.acceptTotal),
    (ascii "conns_current", x.metrics.connsCurrent),
    (ascii "requests_total", x.metrics.requestsTotal),
    (ascii "reject_total", x.metrics.rejectTotal),
    (ascii "reject_411_total", x.metrics.reject411Total),
    (ascii "reject_413_total", x.metrics.reject413Total),
    (ascii "reject_429_total", x.metrics.reject429Total),
    (ascii "reject_431_total", x.metrics.reject431Total),
    (ascii "reject_501_total", x.metrics.reject501Total),
    (ascii "reject_503_total", x.metrics.reject503Total),
    (ascii "conn_reject_total", x.metrics.connRejectTotal),
    (ascii "timeout_close_total", x.metrics.timeoutCloseTotal),
    (ascii "global_inflight_bytes_current", x.metrics.globalInflightBytesCurrent)]

/-- `key=value` of every field, with blanks between them and a line feed behind. -/
def line (x : MetricsSample) : Bytes :=
  [32].intercalate (x.fields.map fun field => field.1 ++ 61 :: signedDecimal field.2) ++ [10]

end MetricsSample

/-! ## The log -/

structure MetricsLog where
  /-- `metrics_log_stream_.is_open()`. -/
  isOpen : Bool := false
  startTime : Time := 0
  nextTime : Time := 0
  samples : List MetricsSample := []
  deriving DecidableEq, Repr

/-- What `MaybeWriteMetricsLog` reads from the two clocks and from `/proc/self/status`. -/
structure MetricsReading where
  now : Time := 0
  unixMs : Int := 0
  status : Option Bytes := none
  deriving DecidableEq, Repr

/-- The contents of the file. -/
def MetricsLog.text (log : MetricsLog) : Bytes := log.samples.flatMap MetricsSample.line

/-- The clock shows `now` when the stream has been opened. -/
def initializeMetricsLogging (now : Time) : MetricsLog where
  isOpen := true
  startTime := now
  nextTime := now + kMetricsLogInterval

/-- `do next += kMetricsLogInterval; while (next <= now);` -/
def advanceLogTime (now : Time) : Nat → Time → Time
  | 0, next => next
  | turns + 1, next =>
    let next := next + kMetricsLogInterval
    if next ≤ now then advanceLogTime now turns next else next

def MetricsLog.sample (reading : MetricsReading) (metrics : Metrics) (log : MetricsLog) :
    MetricsSample where
  ts := reading.unixMs
  uptimeS := (reading.now - log.startTime) / seconds 1
  rssKb := readCurrentRssKb reading.status
  metrics := metrics

/-- The loop comes to its end within one turn for every interval that has passed. -/
def maybeWriteMetricsLog (reading : MetricsReading) (metrics : Metrics) (log : MetricsLog) :
    MetricsLog :=
  if !log.isOpen then log
  else if reading.now < log.nextTime then log
  else
    let turns := (reading.now - log.nextTime) / kMetricsLogInterval + 1
    { log with
      samples := log.samples ++ [log.sample reading metrics]
      nextTime := advanceLogTime reading.now turns log.nextTime }

/-! ## The next line -/

/-- The loop moves on by all intervals that have passed and one more. -/
theorem advanceLogTime_eq {now next : Nat} (h : next ≤ now) :
    advanceLogTime now ((now - next) / kMetricsLogInterval + 1) next =
      next + ((now - next) / kMetricsLogInterval + 1) * kMetricsLogInterval := by
  generalize hturns : (now - next) / kMetricsLogInterval = turns
  have hpos : 0 < kMetricsLogInterval := by decide
  induction turns generalizing next with
  | zero =>
    have hlt : now - next < kMetricsLogInterval := (Nat.div_eq_zero_iff_lt hpos).mp hturns
    have hend : ¬ next + kMetricsLogInterval ≤ now := fun hle =>
      Nat.not_le.mpr hlt ((Nat.le_sub_iff_add_le' h).mpr hle)
    rw [advanceLogTime, if_neg hend, Nat.one_mul]
  | succ turns ih =>
    have hle : kMetricsLogInterval ≤ now - next := by
      by_contra hlt
      rw [Nat.div_eq_of_lt (Nat.lt_of_not_le hlt)] at hturns
      cases hturns
    have hmore : next + kMetricsLogInterval ≤ now := (Nat.le_sub_iff_add_le' h).mp hle
    have hrest : (now - (next + kMetricsLogInterval)) / kMetricsLogInterval = turns := by
      rw [Nat.div_eq_sub_div hpos hle, Nat.sub_sub] at hturns
      exact Nat.succ.inj hturns
    rw [advanceLogTime, if_pos hmore, ih hmore hrest, Nat.succ_mul (turns + 1), Nat.add_assoc,
      Nat.add_comm kMetricsLogInterval]

/-- A line that is due is written, and the next one is due at the first full interval after the
clock. -/
theorem maybeWriteMetricsLog_due {reading : MetricsReading} {log : MetricsLog}
    (hopen : log.isOpen = true) (hdue : log.nextTime ≤ reading.now) (metrics : Metrics) :
    maybeWriteMetricsLog reading metrics log = { log with
      samples := log.samples ++ [log.sample reading metrics]
      nextTime := log.nextTime +
        ((reading.now - log.nextTime) / kMetricsLogInterval + 1) * kMetricsLogInterval } := by
  rw [maybeWriteMetricsLog, if_neg (by simp [hopen]), if_neg (Nat.not_lt.mpr hdue)]
  dsimp only
  rw [advanceLogTime_eq hdue]

theorem maybeWriteMetricsLog_early {reading : MetricsReading} {log : MetricsLog}
    (hearly : reading.now < log.nextTime) (metrics : Metrics) :
    maybeWriteMetricsLog reading metrics log = log := by
  rw [maybeWriteMetricsLog, if_pos hearly, ite_self]

/-- The next line is never due earlier than it was. -/
theorem nextTime_maybeWriteMetricsLog (reading : MetricsReading) (metrics : Metrics)
    (log : MetricsLog) : log.nextTime ≤ (maybeWriteMetricsLog reading metrics log).nextTime := by
  by_cases hdue : log.nextTime ≤ reading.now
  · cases hopen : log.isOpen with
    | false =>
      rw [maybeWriteMetricsLog, if_pos (by simp [hopen])]
    | true =>
      rw [maybeWriteMetricsLog_due hopen hdue]
      exact Nat.le_add_right ..
  · rw [maybeWriteMetricsLog_early (Nat.lt_of_not_le hdue)]

end WebServer.Core
