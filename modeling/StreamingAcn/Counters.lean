/-
StreamingAcn.Counters — what a receiver counts.

Counters are 64-bit words that only grow. The receive loop counts what it reads, the roster counts
the packets it cannot queue, and every worker counts the verdicts of its arbiter.
-/
import StreamingAcn.Arbitration.Arbiter

namespace StreamingAcn

structure Counters where
  datagramsReceived : UInt64 := 0
  bytesReceived : UInt64 := 0
  datagramsInvalid : UInt64 := 0
  packetsUnmatched : UInt64 := 0
  readTimeouts : UInt64 := 0
  dataEmitted : UInt64 := 0
  dataUnchanged : UInt64 := 0
  packetsDropped : UInt64 := 0
  queueOverflows : UInt64 := 0
  sequenceRejected : UInt64 := 0
  conflicts : UInt64 := 0
  timeouts : UInt64 := 0
  deriving DecidableEq

namespace Counters

/-- The counters after another verdict. -/
def tally (c : Counters) : Arbitration.Verdict → Counters
  | .emitted => { c with dataEmitted := c.dataEmitted + 1 }
  | .unchanged => { c with dataUnchanged := c.dataUnchanged + 1 }
  | .conflict => { c with conflicts := c.conflicts + 1 }
  | .dropped => { c with packetsDropped := c.packetsDropped + 1 }
  | .stale => { c with sequenceRejected := c.sequenceRejected + 1 }
  | .timedOut => { c with timeouts := c.timeouts + 1 }
  | .idle => c

/-- The counters once some verdicts were counted, and nothing else. -/
def ofVerdicts (vs : List Arbitration.Verdict) : Counters where
  dataEmitted := UInt64.ofNat (vs.count .emitted)
  dataUnchanged := UInt64.ofNat (vs.count .unchanged)
  packetsDropped := UInt64.ofNat (vs.count .dropped)
  sequenceRejected := UInt64.ofNat (vs.count .stale)
  conflicts := UInt64.ofNat (vs.count .conflict)
  timeouts := UInt64.ofNat (vs.count .timedOut)

theorem tally_ofVerdicts (vs : List Arbitration.Verdict) (v : Arbitration.Verdict) :
    (ofVerdicts vs).tally v = ofVerdicts (vs ++ [v]) := by
  cases v <;> simp [ofVerdicts, tally, UInt64.ofNat_add]

theorem foldl_tally_ofVerdicts (us vs : List Arbitration.Verdict) :
    vs.foldl tally (ofVerdicts us) = ofVerdicts (us ++ vs) := by
  induction vs generalizing us with
  | nil => rw [List.append_nil, List.foldl_nil]
  | cons v rest ih =>
    rw [List.foldl_cons, tally_ofVerdicts, ih, List.append_assoc, List.singleton_append]

/-- Verdicts that are counted one after the other count how often each was given. -/
theorem foldl_tally (vs : List Arbitration.Verdict) : vs.foldl tally {} = ofVerdicts vs :=
  foldl_tally_ofVerdicts [] vs

def overflow (c : Counters) : Counters := { c with queueOverflows := c.queueOverflows + 1 }

def readTimeout (c : Counters) : Counters := { c with readTimeouts := c.readTimeouts + 1 }

/-- Count a datagram of which `length` octets were read. -/
def datagram (c : Counters) (length : Nat) : Counters :=
  { c with
    datagramsReceived := c.datagramsReceived + 1
    bytesReceived := c.bytesReceived + UInt64.ofNat length }

def invalid (c : Counters) : Counters := { c with datagramsInvalid := c.datagramsInvalid + 1 }

def unmatched (c : Counters) : Counters := { c with packetsUnmatched := c.packetsUnmatched + 1 }

end Counters

end StreamingAcn
