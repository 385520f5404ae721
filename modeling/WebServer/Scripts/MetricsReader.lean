import WebServer.Core.MetricsLog
import WebServer.Http.Client
import WebServer.Lib.Records

/-!
# The readers of the metrics log

What `scripts/wrk_benchmark.py` and `scripts/sanitizer_smoke.py` make of `metrics.log`, for a
text of ASCII characters.
-/

namespace WebServer.Scripts

open WebServer.Net WebServer.Http WebServer.Core Records

/-- Exceptions that end a script. -/
inductive ScriptError
  /-- `int()` of this text. -/
  | valueError (text : Bytes)
  | keyError (key : Bytes)
  | runtimeError (message : Bytes)
  deriving DecidableEq, Repr

abbrev Sample := List (Bytes × Int)

/-! ## Texts -/

/-- Where `str.splitlines()` ends a line. -/
def isLineBoundary (b : UInt8) : Bool := (10 ≤ b && b ≤ 13) || (28 ≤ b && b ≤ 30)

/-- `str.splitlines()` behind a line that has begun with `line`. -/
def splitlinesFrom (line : Bytes) : Bytes → List Bytes
  | [] => if line = [] then [] else [line]
  | 13 :: 10 :: text => line :: splitlinesFrom [] text
  | b :: text =>
    if isLineBoundary b then line :: splitlinesFrom [] text else splitlinesFrom (line ++ [b]) text

def splitlines (text : Bytes) : List Bytes := splitlinesFrom [] text

/-- `int(text)`: digits in groups with one underscore between them, a sign before them and blanks
around them.  The limit of 4300 digits at which `int()` gives up is left out. -/
def int (text : Bytes) : Except ScriptError Int :=
  let digits := trim text
  let negative := digits.head? = some 45
  let groups := (if negative || digits.head? = some 43 then digits.tail else digits).splitOn 95
  if groups.all fun group => group ≠ [] && group.all isDigit then
    let value : Int := digitsValue groups.flatten
    .ok (if negative then -value else value)
  else .error (.valueError text)

/-! ## Samples -/

/-- The words of a line, as both scripts read them. -/
def readTokens (line : Bytes) : Except ScriptError Sample := readRecord isBlank 61 int line

/-- One line in `read_metrics_samples`. -/
def readLine (samples : List Sample) (rawLine : Bytes) : Except ScriptError (List Sample) :=
  let line := strip rawLine
  if line = [] then .ok samples
  else do
    let sample ← readTokens line
    return if (sample.lookup (ascii "ts")).isSome then samples ++ [sample] else samples

def readMetricsSamples (text : Bytes) : Except ScriptError (List Sample) :=
  (splitlines text).foldlM readLine []

/-- `sanitizer_smoke.py` looks at the last line only. -/
def readLatestMetrics (text : Bytes) : Except ScriptError Sample :=
  let lines := ((splitlines text).filter (strip · ≠ [])).map strip
  match lines.getLast? with
  | none => .ok []
  | some line => readTokens line

/-- `sample[key]`. -/
def item (sample : Sample) (key : Bytes) : Except ScriptError Int :=
  match sample.lookup key with
  | none => .error (.keyError key)
  | some value => .ok value

def sampleAtOrAfter (targetTsMs : Int) : List Sample → Except ScriptError Sample
  | [] => .error (.runtimeError (ascii "no metrics sample found at or after " ++
      signedDecimal targetTsMs))
  | sample :: samples => do
    if targetTsMs ≤ (← item sample (ascii "ts")) then return sample
    else sampleAtOrAfter targetTsMs samples

/-! ## Deltas -/

structure Deltas where
  acceptDelta : Int
  requestsDelta : Int
  rejectDelta : Int
  errorsDelta : Int
  endSampleTsMs : Int
  warmupSampleTsMs : Int
  rssDeltaKb : Int
  deriving DecidableEq, Repr

/-- `end_sample[key] - warmup_sample[key]`. -/
def delta (warmupSample endSample : Sample) (key : Bytes) : Except ScriptError Int := do
  return (← item endSample key) - (← item warmupSample key)

/-- What `run_benchmark_once` takes from the log at its two boundaries. -/
def runBenchmarkOnce (warmupBoundaryMs endBoundaryMs : Int) (text : Bytes) :
    Except ScriptError Deltas := do
  let samples ← readMetricsSamples text
  let warmupSample ← sampleAtOrAfter warmupBoundaryMs samples
  let endSample ← sampleAtOrAfter endBoundaryMs samples
  return {
    acceptDelta := ← delta warmupSample endSample (ascii "accept_total")
    requestsDelta := ← delta warmupSample endSample (ascii "requests_total")
    rejectDelta := ← delta warmupSample endSample (ascii "reject_total")
    errorsDelta := ← delta warmupSample endSample (ascii "errors_total")
    endSampleTsMs := ← item endSample (ascii "ts")
    warmupSampleTsMs := ← item warmupSample (ascii "ts")
    rssDeltaKb := ← delta warmupSample endSample (ascii "rss_kb") }

end WebServer.Scripts
