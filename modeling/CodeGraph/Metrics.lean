import CodeGraph.Transport
import CodeGraph.Window
import Std.Data.ExtTreeMap

/-!
# Metrics

A server counts its requests, their durations, flushes, connections and failures.
Durations are kept for the last `windowSize` requests, together with their sum, and of
the slow requests the last `maxSlowQueries`.  Requests are recorded only when recording is
switched on; flushes, connections and failures always are.

Durations and their sums are 64-bit words.  The sums over the window and over all
flushes go on from zero when they outgrow a word.  The time that one command took
altogether must fit: `Metrics.recordQuery?` refuses a request with which it would not.
-/

namespace CodeGraph

/-- How many connections were opened over a transport, and how many are still open. -/
structure ConnectionCounts where
  opened : Nat
  active : Nat
deriving DecidableEq

namespace ConnectionCounts

/-- After one more connection. -/
def opening (c : ConnectionCounts) : ConnectionCounts :=
  ⟨c.opened + 1, c.active + 1⟩

/-- After one connection less. -/
def closing (c : ConnectionCounts) : ConnectionCounts :=
  ⟨c.opened, c.active - 1⟩

end ConnectionCounts

/-- A request that took long, and when it was recorded. -/
structure SlowQuery where
  operation : String
  duration : UInt64
  recordedAt : Nat
deriving DecidableEq

/-- How often a command was asked for, and how long it took altogether. -/
structure CommandCount where
  count : Nat
  total : UInt64
deriving DecidableEq

/-- The mean duration of a command. -/
def CommandCount.average (c : CommandCount) : UInt64 :=
  c.total / UInt64.ofNat c.count

/-- Whether the time that a command took still fits a word after one more request. -/
def CommandCount.hasRoom (c : CommandCount) (duration : UInt64) : Bool :=
  c.total.toNat + duration.toNat < UInt64.size

/-- After one more request. -/
def CommandCount.adding (c : CommandCount) (duration : UInt64) : CommandCount :=
  ⟨c.count + 1, c.total + duration⟩

theorem CommandCount.toNat_total_adding {c : CommandCount} {duration : UInt64}
    (h : c.hasRoom duration = true) :
    (c.adding duration).total.toNat = c.total.toNat + duration.toNat := by
  simp only [hasRoom, decide_eq_true_eq] at h
  simpa [adding, UInt64.toNat_add] using Nat.mod_eq_of_lt h

namespace Metrics

/-- How many durations are kept. -/
def windowSize : Nat := 1000

/-- How many slow requests are kept. -/
def maxSlowQueries : Nat := 10

/-- From which duration on a request is slow, in milliseconds. -/
def slowThreshold : UInt64 := 100

/-- How many commands a summary lists. -/
def maxListedCommands : Nat := 5

end Metrics

/-- What a server has counted. -/
structure Metrics where
  enabled : Bool
  queryCount : Nat
  slowCount : Nat
  window : Window Metrics.windowSize UInt64
  windowSum : UInt64
  commands : Std.ExtTreeMap String CommandCount
  slowQueries : Window Metrics.maxSlowQueries SlowQuery
  flushCount : Nat
  flushTotal : UInt64
  lastFlush : UInt64
  unix : ConnectionCounts
  webSocket : ConnectionCounts
  decodeErrors : Nat
  sendTimeouts : Nat

namespace Metrics

/-- Nothing counted yet. -/
def start (enabled : Bool) : Metrics where
  enabled := enabled
  queryCount := 0
  slowCount := 0
  window := .empty
  windowSum := 0
  commands := ∅
  slowQueries := .empty
  flushCount := 0
  flushTotal := 0
  lastFlush := 0
  unix := ⟨0, 0⟩
  webSocket := ⟨0, 0⟩
  decodeErrors := 0
  sendTimeouts := 0

/-! ### Recording -/

/-- The sum of the window after its oldest duration leaves, if it is full. -/
def sumWithoutOldest (m : Metrics) : UInt64 :=
  if m.window.size < windowSize then m.windowSum
  else m.windowSum - m.window.oldest?.getD 0

/-- What was counted for a command so far. -/
def command (m : Metrics) (operation : String) : CommandCount :=
  m.commands.getD operation ⟨0, 0⟩

/-- Records a request, if recording is switched on. -/
def recordQuery (m : Metrics) (operation : String) (duration : UInt64) (now : Nat) :
    Metrics :=
  if m.enabled then
    let m := { m with
      queryCount := m.queryCount + 1
      commands := m.commands.insert operation ((m.command operation).adding duration)
      window := m.window.push duration
      windowSum := m.sumWithoutOldest + duration }
    if slowThreshold ≤ duration then
      { m with
        slowCount := m.slowCount + 1
        slowQueries := m.slowQueries.push ⟨operation, duration, now⟩ }
    else m
  else m

/-- Records a request; `none` if the time that its command took would outgrow a word. -/
def recordQuery? (m : Metrics) (operation : String) (duration : UInt64) (now : Nat) :
    Option Metrics :=
  if m.enabled && !(m.command operation).hasRoom duration then none
  else some (m.recordQuery operation duration now)

/-- Records a flush. -/
def recordFlush (m : Metrics) (duration : UInt64) : Metrics :=
  { m with
    flushCount := m.flushCount + 1
    flushTotal := m.flushTotal + duration
    lastFlush := duration }

/-- The counts of a transport. -/
def connections (m : Metrics) : Transport → ConnectionCounts
  | .unix => m.unix
  | .webSocket => m.webSocket

/-- Changes the counts of a transport. -/
def modifyConnections (m : Metrics) (transport : Transport)
    (f : ConnectionCounts → ConnectionCounts) : Metrics :=
  match transport with
  | .unix => { m with unix := f m.unix }
  | .webSocket => { m with webSocket := f m.webSocket }

/-- Records that a connection was opened. -/
def connectionOpened (m : Metrics) (transport : Transport) : Metrics :=
  m.modifyConnections transport .opening

/-- Records that a connection was closed. -/
def connectionClosed (m : Metrics) (transport : Transport) : Metrics :=
  m.modifyConnections transport .closing

/-- Records a message that is not a request. -/
def recordDecodeError (m : Metrics) : Metrics :=
  { m with decodeErrors := m.decodeErrors + 1 }

/-- Records a reply that could not be sent in time. -/
def recordSendTimeout (m : Metrics) : Metrics :=
  { m with sendTimeouts := m.sendTimeouts + 1 }

/-! ### Summaries -/

/-- The durations of the window, shortest first. -/
def sortedWindow (m : Metrics) : List UInt64 :=
  m.window.toList.mergeSort (· ≤ ·)

/-- The duration that a percentage of the window does not exceed. -/
def percentile (m : Metrics) (percent : Nat) : UInt64 :=
  let n := m.window.size
  m.sortedWindow.getD (min (n * percent / 100) (n - 1)) 0

/-- The mean duration of the window. -/
def average (m : Metrics) : UInt64 :=
  m.windowSum / UInt64.ofNat m.window.size

/-- The mean duration of a flush. -/
def flushAverage (m : Metrics) : UInt64 :=
  m.flushTotal / UInt64.ofNat m.flushCount

/-- The commands asked for most often, those asked for equally often by name. -/
def topCommands (m : Metrics) : List (String × CommandCount) :=
  (m.commands.toList.mergeSort fun a b => b.2.count ≤ a.2.count).take maxListedCommands

end Metrics

end CodeGraph
