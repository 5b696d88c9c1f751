/-
StreamingAcn.Proofs.Receiver.Accounting — every datagram is counted once.

A datagram that a running receiver reads holds no packet, or a packet for a universe that is not
active, or one that its universe does not merge, or one that the worker of its universe gives a
verdict on. The loop counts the first two, nobody counts the third, and the workers count the
verdicts; at rest no verdict is outstanding, so the counters add up to the datagrams.

Definitions:

* `Run`: a receiver that comes to rest after every request;
* `datagram?`, `packet?`: what a request brought to a receiver;
* `isInvalid`, `isUnmatched`, `isForeign`, `isHeard`: what became of it;
* `Reads`: the counters of the loop.

Main statement: `accounting`.
-/
import StreamingAcn.Proofs.Receiver.Refinement
import StreamingAcn.Proofs.Roster.Tally

namespace StreamingAcn

open Arbitration (Verdict)
open Delivery (Report Trouble)
open Relation (ReflTransGen)

namespace Receiver

open Roster (Balanced Chronicle Faithful)

/-! ## What requests bring -/

/-- A receiver and what it was asked. -/
abbrev Entry := Receiver × Request

/-- A receiver that comes to rest after every request, and all that it was asked. -/
inductive Run (start : Receiver) : List Entry → Receiver → Prop
  | nil : Run start [] start
  | serve {log : List Entry} {r r' : Receiver} {q : Request} (h : Run start log r)
      (hs : ReflTransGen Stir (r.serve q) r') (hr : r'.roster.AtRest) :
      Run start (log ++ [(r, q)]) r'

namespace Entry

/-- The datagram that was read. A receiver that has stopped reads none. -/
def datagram? : Entry → Option Octets
  | (r, .read (.datagram octets) _) => if r.isRunning then some octets else none
  | _ => none

/-- The packet that was read. -/
def packet? (e : Entry) : Option Packet := e.datagram?.bind fun b => (Packet.decode b).toOption

/-- Whether the time allowed for a read passed. -/
def isDeadline : Entry → Bool
  | (r, .read .nothing _) => r.isRunning
  | _ => false

/-- Whether a datagram without a packet was read. -/
def isInvalid (e : Entry) : Bool := e.datagram?.isSome && e.packet?.isNone

/-- Whether a packet for a universe was read that was not active. -/
def isUnmatched (e : Entry) : Bool := e.packet?.any fun p => !e.1.roster.isActive p.universeId

/-- Whether a packet was read that its universe, though active, does not merge. -/
def isForeign (e : Entry) : Bool :=
  e.packet?.any fun p => e.1.roster.isActive p.universeId && p.startCode ≠ 0

/-- Whether a packet was read that its universe merges. -/
def isHeard (e : Entry) : Bool := e.packet?.any e.1.roster.isHeard

theorem packet?_of_none {e : Entry} (h : e.datagram? = none) : e.packet? = none := by
  rw [packet?, h, Option.bind_none]

theorem isDeadline_of_some {e : Entry} {b : Octets} (h : e.datagram? = some b) :
    e.isDeadline = false := by
  obtain ⟨r, q⟩ := e
  cases q with
  | read reading now =>
    cases reading with
    | nothing => cases h
    | datagram octets => rfl
    | interrupted => rfl
    | failed => rfl
  | activate u now => rfl
  | deactivate u => rfl
  | stop => rfl

/-- One of four things becomes of a datagram, and none of them of anything else. -/
theorem fate (e : Entry) : [e].countP (fun e => e.datagram?.isSome) =
    [e].countP isInvalid + [e].countP isUnmatched + [e].countP isForeign + [e].countP isHeard := by
  cases hd : e.datagram? with
  | none =>
    simp [isInvalid, isUnmatched, isForeign, isHeard, hd, packet?_of_none hd]
  | some b =>
    cases hp : e.packet? with
    | none => simp [isInvalid, isUnmatched, isForeign, isHeard, hd, hp]
    | some p =>
      cases ha : e.1.roster.isActive p.universeId <;> by_cases hs : p.startCode = 0 <;>
        simp [isInvalid, isUnmatched, isForeign, isHeard, Roster.isHeard, hd, hp, ha, hs]

end Entry

theorem fates (log : List Entry) : (log.filterMap Entry.datagram?).length =
    log.countP Entry.isInvalid + log.countP Entry.isUnmatched + log.countP Entry.isForeign +
      log.countP Entry.isHeard := by
  rw [List.length_filterMap_eq_countP]
  induction log with
  | nil => rfl
  | cons e rest ih =>
    have := e.fate
    rw [← List.singleton_append]
    simp only [List.countP_append]
    omega

/-! ## The counters of the loop -/

/-- What the loop counts for a request. -/
def note (e : Entry) (c : Counters) : Counters :=
  match e.datagram? with
  | some b =>
    let c := c.datagram (b.take bufferLength).length
    match e.packet? with
    | none => c.invalid
    | some p => if e.1.roster.isActive p.universeId then c else c.unmatched
  | none => if e.isDeadline then c.readTimeout else c

/-- The counters of the loop count what the requests brought. -/
structure Reads (log : List Entry) (c : Counters) : Prop where
  datagrams : c.datagramsReceived = UInt64.ofNat (log.filterMap Entry.datagram?).length
  bytes : c.bytesReceived =
    UInt64.ofNat ((log.filterMap Entry.datagram?).map fun b => min b.length 639).sum
  invalid : c.datagramsInvalid = UInt64.ofNat (log.countP Entry.isInvalid)
  unmatched : c.packetsUnmatched = UInt64.ofNat (log.countP Entry.isUnmatched)
  deadlines : c.readTimeouts = UInt64.ofNat (log.countP Entry.isDeadline)

theorem reads_note {log : List Entry} {c : Counters} (h : Reads log c) (e : Entry) :
    Reads (log ++ [e]) (note e c) := by
  obtain ⟨hdatagrams, hbytes, hinvalid, hunmatched, hdeadlines⟩ := h
  cases hd : e.datagram? with
  | none =>
    have hp := Entry.packet?_of_none hd
    cases ht : e.isDeadline <;> constructor <;>
      simp [note, hd, hp, ht, Entry.isInvalid, Entry.isUnmatched, Counters.readTimeout,
        hdatagrams, hbytes, hinvalid, hunmatched, hdeadlines, UInt64.ofNat_add]
  | some b =>
    have ht := Entry.isDeadline_of_some hd
    have hseen : min bufferLength b.length = min b.length 639 := Nat.min_comm _ _
    cases hp : e.packet? with
    | none =>
      constructor <;>
        simp [note, hd, hp, ht, hseen, Entry.isInvalid, Entry.isUnmatched, Counters.datagram,
          Counters.invalid, hdatagrams, hbytes, hinvalid, hunmatched, hdeadlines, UInt64.ofNat_add]
    | some p =>
      cases ha : e.1.roster.isActive p.universeId <;> constructor <;>
        simp [note, hd, hp, ht, ha, hseen, Entry.isInvalid, Entry.isUnmatched, Counters.datagram,
          Counters.unmatched, hdatagrams, hbytes, hinvalid, hunmatched, hdeadlines,
          UInt64.ofNat_add]

/-! ## What a request does at rest -/

variable {timeout n : Nat} {book : UniverseId → Chronicle} {vs : List Verdict} {r r' : Receiver}

/-- A request is counted by the loop, and a packet that its universe merges is one more to be given
a verdict on. -/
structure Served (timeout : Nat) (vs : List Verdict) (n : Nat) (r : Receiver) (q : Request) :
    Prop where
  faithful : ∃ book, Faithful timeout book (r.serve q).roster
  counters : (r.serve q).roster.counters = note (r, q) r.roster.counters
  balanced : Balanced vs (n + [(r, q)].countP Entry.isHeard) (r.serve q).roster

theorem heard_of_none {e : Entry} (h : e.packet? = none) : [e].countP Entry.isHeard = 0 := by
  simp [Entry.isHeard, h]

/-- A request that brings nothing is not counted. -/
theorem served_of_nothing {q : Request} (hf : Faithful timeout book (r.serve q).roster)
    (hb : Balanced vs n (r.serve q).roster)
    (hc : (r.serve q).roster.counters = r.roster.counters)
    (hd : Entry.datagram? (r, q) = none) (ht : Entry.isDeadline (r, q) = false) :
    Served timeout vs n r q where
  faithful := ⟨book, hf⟩
  counters := by rw [hc, note, hd, ht]; rfl
  balanced := by
    rw [heard_of_none (Entry.packet?_of_none hd)]
    exact hb

theorem served_invalid (hf : Faithful timeout book r.roster) (hb : Balanced vs n r.roster)
    {octets : Octets} {now : Nat} (hrun : r.isRunning = true)
    (hdecode : ∀ p, Packet.decode octets ≠ .ok p) :
    Served timeout vs n r (.read (.datagram octets) now) := by
  have hd : Entry.datagram? (r, .read (.datagram octets) now) = some octets := by
    simp [Entry.datagram?, hrun]
  have hp : Entry.packet? (r, .read (.datagram octets) now) = none := by
    rw [Entry.packet?, hd, Option.bind_some]
    cases h : Packet.decode octets with
    | error e => rfl
    | ok p => exact absurd h (hdecode p)
  have hserve : (r.serve (.read (.datagram octets) now)).roster =
      (r.roster.count (·.datagram (octets.take bufferLength).length)).count Counters.invalid := by
    simp only [serve, read, hrun, Bool.not_true, Bool.false_eq_true, if_false,
      takeDatagram_of_error hdecode]
  refine ⟨⟨book, ?_⟩, ?_, ?_⟩
  · rw [hserve]
    exact Roster.faithful_count (Roster.faithful_count hf _) _
  · rw [hserve, note, hd, hp]
    rfl
  · rw [hserve, heard_of_none hp]
    exact (hb.count fun _ => rfl).count fun _ => rfl

theorem served_packet (hf : Faithful timeout book r.roster) (hr : r.roster.AtRest)
    (hb : Balanced vs n r.roster) {octets : Octets} {now : Nat} {p : Packet}
    (hrun : r.isRunning = true) (hdecode : Packet.decode octets = .ok p) :
    Served timeout vs n r (.read (.datagram octets) now) := by
  have hd : Entry.datagram? (r, .read (.datagram octets) now) = some octets := by
    simp [Entry.datagram?, hrun]
  have hp : Entry.packet? (r, .read (.datagram octets) now) = some p := by
    rw [Entry.packet?, hd, Option.bind_some, hdecode]
    rfl
  have hserve : (r.serve (.read (.datagram octets) now)).roster =
      takeDatagram r.roster octets now := by
    simp only [serve, read, hrun, Bool.not_true, Bool.false_eq_true, if_false]
  rw [takeDatagram_of_ok hdecode] at hserve
  have hfcount := Roster.faithful_count hf (·.datagram (octets.take bufferLength).length)
  have hrcount := Roster.atRest_count hr (·.datagram (octets.take bufferLength).length)
  have hbcount := hb.count (f := (·.datagram (octets.take bufferLength).length)) fun _ => rfl
  have hfaithful := Roster.faithful_dispatch hfcount hrcount (some p) now true
  have houtlet := Roster.outlet_dispatch_of_atRest hfcount hrcount (some p) now
  have hbalanced := Roster.balanced_dispatch hfcount hrcount hbcount (some p) now
  have hheard : [((r, .read (.datagram octets) now) : Entry)].countP Entry.isHeard =
      if (some p).any r.roster.isHeard then 1 else 0 := by
    rw [List.countP_singleton, Entry.isHeard, hp]
  have hmatched : r.roster.isMatched (some p) = r.roster.isActive p.universeId := rfl
  rw [hmatched] at hserve
  cases ha : r.roster.isActive p.universeId with
  | true =>
    rw [if_pos ha] at hserve
    refine ⟨⟨_, hserve ▸ hfaithful⟩, ?_, ?_⟩
    · rw [hserve, Roster.counters, houtlet, note, hd, hp]
      simp only [ha, if_true]
      rfl
    · rw [hserve, hheard]
      exact hbalanced
  | false =>
    rw [if_neg (by simp [ha])] at hserve
    refine ⟨⟨_, hserve ▸ Roster.faithful_count hfaithful _⟩, ?_, ?_⟩
    · rw [hserve, note, hd, hp]
      simp only [ha, Bool.false_eq_true, if_false]
      exact congrArg (fun o => Counters.unmatched o.counters) houtlet
    · rw [hserve, hheard]
      exact hbalanced.count fun _ => rfl

theorem served_deadline (hf : Faithful timeout book r.roster) (hr : r.roster.AtRest)
    (hb : Balanced vs n r.roster) {now : Nat} (hrun : r.isRunning = true) :
    Served timeout vs n r (.read .nothing now) := by
  have hserve : (r.serve (.read .nothing now)).roster =
      (r.roster.count Counters.readTimeout).dispatch none now := by
    simp only [serve, read, hrun, Bool.not_true, Bool.false_eq_true, if_false]
  have hfcount := Roster.faithful_count hf Counters.readTimeout
  have hrcount := Roster.atRest_count hr Counters.readTimeout
  have hbcount := hb.count (f := Counters.readTimeout) fun _ => rfl
  have houtlet := Roster.outlet_dispatch_of_atRest hfcount hrcount none now
  refine ⟨⟨_, hserve ▸ Roster.faithful_dispatch hfcount hrcount none now false⟩, ?_, ?_⟩
  · rw [hserve, Roster.counters, houtlet, note]
    simp only [Entry.datagram?, Entry.isDeadline, hrun, if_true]
    rfl
  · rw [hserve]
    exact Roster.balanced_dispatch hfcount hrcount hbcount none now

/-- Whatever is asked of a receiver at rest is counted once. -/
theorem served (hf : Faithful timeout book r.roster) (hr : r.roster.AtRest)
    (hb : Balanced vs n r.roster) (q : Request) : Served timeout vs n r q := by
  have hquiet := Roster.quiet_of_atRest hf hr
  have hstop : Faithful timeout (Roster.recorded book .shutdown) r.roster.shutdown ∧
      Balanced vs n r.roster.shutdown :=
    ⟨Roster.faithful_shutdown hf hr,
      hb.quiet hquiet (Roster.quiet_shutdown hquiet) Roster.outlet_shutdown⟩
  have hcounters : r.roster.shutdown.counters = r.roster.counters := by
    rw [Roster.counters, Roster.outlet_shutdown]
    rfl
  cases q with
  | read reading now =>
    cases hrun : r.isRunning with
    | false =>
      have hserve : r.serve (.read reading now) = r := by simp [serve, read, hrun]
      refine served_of_nothing (hserve.symm ▸ hf) (hserve.symm ▸ hb) (by rw [hserve]) ?_ ?_
      · cases reading <;> simp [Entry.datagram?, hrun]
      · cases reading <;> simp [Entry.isDeadline, hrun]
    | true =>
      cases reading with
      | datagram octets =>
        by_cases h : ∃ p, Packet.decode octets = .ok p
        · obtain ⟨p, hp⟩ := h
          exact served_packet hf hr hb hrun hp
        · exact served_invalid hf hb hrun fun p hp => h ⟨p, hp⟩
      | nothing => exact served_deadline hf hr hb hrun
      | interrupted =>
        have hserve : r.serve (.read .interrupted now) = r := by simp [serve, read, hrun]
        exact served_of_nothing (hserve.symm ▸ hf) (hserve.symm ▸ hb) (by rw [hserve]) rfl rfl
      | failed =>
        have hserve : (r.serve (.read .failed now)).roster = r.roster.shutdown := by
          simp [serve, read, stop, hrun]
        exact served_of_nothing (hserve.symm ▸ hstop.1) (hserve.symm ▸ hstop.2)
          (by rw [hserve]; exact hcounters) rfl rfl
  | activate u now =>
    refine served_of_nothing (Roster.faithful_activate hf u now (.ok ())) ?_ ?_ rfl rfl
    · exact hb.quiet hquiet (Roster.quiet_activate hquiet u now _) (Roster.outlet_activate u now _)
    · exact congrArg (·.counters) (Roster.outlet_activate u now _)
  | deactivate u =>
    cases hclosed : r.roster.isClosed with
    | true =>
      have hserve : r.serve (.deactivate u) = r := by simp [serve, deactivate, hclosed]
      exact served_of_nothing (hserve.symm ▸ hf) (hserve.symm ▸ hb) (by rw [hserve]) rfl rfl
    | false =>
      have hserve : (r.serve (.deactivate u)).roster = r.roster.deactivate u := by
        simp [serve, deactivate, hclosed]
      have houtlet := Roster.outlet_deactivate (r := r.roster) u
      refine served_of_nothing (hserve.symm ▸ Roster.faithful_deactivate hf hr u) ?_ ?_ rfl rfl
      · exact hserve.symm ▸ hb.quiet hquiet (Roster.quiet_deactivate hquiet u) houtlet
      · rw [hserve]
        exact congrArg (·.counters) houtlet
  | stop => exact served_of_nothing hstop.1 hstop.2 hcounters rfl rfl

/-! ## Runs -/

/-- What happens by itself is not counted by the loop. -/
theorem reads_stir {roster roster' : Roster} {log : List Entry} (h : Reads log roster.counters)
    (hs : Roster.Stir roster roster') : Reads log roster'.counters := by
  rcases Roster.counters_stir hs with hc | ⟨v, hc⟩
  · rw [hc]
    exact h
  · rw [hc]
    cases v <;> exact ⟨h.datagrams, h.bytes, h.invalid, h.unmatched, h.deadlines⟩

/-- What holds of a receiver after all that it was asked, also before it rests: its universes are
served, the loop and the workers have counted, and the verdicts account for the packets that
universes merge. -/
structure Audited (timeout : Nat) (log : List Entry) (r : Receiver) : Prop where
  faithful : ∃ book, Faithful timeout book r.roster
  reads : Reads log r.roster.counters
  balanced : ∃ vs, Balanced vs (log.countP Entry.isHeard) r.roster

variable {log : List Entry}

theorem Audited.stirs (h : Audited timeout log r) (hs : ReflTransGen Stir r r') :
    Audited timeout log r' := by
  induction hs with
  | refl => exact h
  | tail _ hs ih =>
    obtain ⟨roster, hs, rfl⟩ := hs
    obtain ⟨⟨book, hf⟩, hreads, vs, hb⟩ := ih
    exact ⟨⟨book, Roster.faithful_stir hf hs⟩, reads_stir hreads hs, Roster.balanced_stir hf hb hs⟩

theorem Audited.serve (h : Audited timeout log r) (hr : r.roster.AtRest) (q : Request) :
    Audited timeout (log ++ [(r, q)]) (r.serve q) := by
  obtain ⟨⟨book, hf⟩, hreads, vs, hb⟩ := h
  obtain ⟨hf', hcounters, hb'⟩ := served hf hr hb q
  refine ⟨hf', ?_, vs, ?_⟩
  · rw [hcounters]
    exact reads_note hreads _
  · rw [List.countP_append]
    exact hb'

theorem audited_start {settings : Settings} {r : Receiver} (h : Receiver.start settings = .ok r) :
    Audited settings.timeout [] r ∧ r.roster.AtRest := by
  unfold Receiver.start at h
  split at h
  · cases h
  · rw [← Except.ok.inj h]
    have haudited : Audited settings.timeout []
        ⟨settings, Roster.start settings.timeout settings.sinkCapacity, true⟩ :=
      ⟨⟨_, Roster.faithful_start _ _⟩, ⟨rfl, rfl, rfl, rfl, rfl⟩, [], Roster.balanced_start _ _⟩
    exact ⟨haudited, Roster.atRest_start _ _⟩

theorem audited_run {settings : Settings} {r₀ : Receiver} (h₀ : Receiver.start settings = .ok r₀)
    (h : Run r₀ log r) : Audited settings.timeout log r ∧ r.roster.AtRest := by
  induction h with
  | nil => exact audited_start h₀
  | serve _ hs hr ih => exact ⟨(ih.1.serve ih.2 _).stirs hs, hr⟩

theorem drained_takeDatagram {roster : Roster} (h : roster.outlet.Drained) (octets : Octets)
    (now : Nat) : (takeDatagram roster octets now).outlet.Drained := by
  by_cases hdecode : ∃ p, Packet.decode octets = .ok p
  · obtain ⟨p, hp⟩ := hdecode
    have hdrained := Roster.drained_dispatch
      (r := roster.count (·.datagram (octets.take bufferLength).length)) h (some p) now
    rw [takeDatagram_of_ok hp]
    split <;> exact hdrained
  · rw [takeDatagram_of_error fun p hp => hdecode ⟨p, hp⟩]
    exact h

theorem drained_serve (h : r.roster.outlet.Drained) (q : Request) :
    (r.serve q).roster.outlet.Drained := by
  have hstop : r.stop.roster.outlet.Drained := by
    rw [stop, Roster.outlet_shutdown]
    exact h
  cases q with
  | read reading now =>
    simp only [serve, read]
    split
    · exact h
    · cases reading with
      | datagram octets => exact drained_takeDatagram h octets now
      | nothing =>
        exact Roster.drained_dispatch (r := r.roster.count Counters.readTimeout) h none now
      | interrupted => exact h
      | failed => exact hstop
  | activate u now =>
    rw [serve, activate, Roster.outlet_activate]
    exact h
  | deactivate u =>
    rw [serve, deactivate]
    split
    · exact h
    · rw [Roster.outlet_deactivate]
      exact h
  | stop => exact hstop

/-- Whatever is asked next, a run goes on. -/
theorem Run.settled {start : Receiver} (h : Run start log r) (hr : r.roster.AtRest) (q : Request) :
    Run start (log ++ [(r, q)]) (r.serve q).settle := by
  have hdrained := drained_serve (Roster.atRest_iff.1 hr).1 q
  obtain ⟨hs, hrest⟩ := Roster.settle_spec hdrained
  refine .serve h ?_ hrest
  exact ReflTransGen.lift (p := Stir) (fun roster => { r.serve q with roster := roster })
    (fun _ b hb => ⟨b, hb, rfl⟩) _ _ hs

/-! ## Numbers -/

/-- Nothing has been counted 2^64 times. What the other counters count is some of the datagrams. -/
structure InRange (log : List Entry) (r : Receiver) : Prop where
  datagrams : (log.filterMap Entry.datagram?).length < 2 ^ 64
  bytes : ((log.filterMap Entry.datagram?).map fun b => min b.length 639).sum < 2 ^ 64
  deadlines : log.countP Entry.isDeadline < 2 ^ 64
  timeouts : r.roster.outlet.reports.received.countP (fun e => e.trouble = .timeout) < 2 ^ 64

theorem toNat_of_eq {x : UInt64} {n : Nat} (h : x = UInt64.ofNat n) (hn : n < 2 ^ 64) :
    x.toNat = n := by
  rw [h, UInt64.toNat_ofNat']
  exact Nat.mod_eq_of_lt hn

/-- The verdicts on packets are of five kinds. -/
theorem countP_hears (vs : List Verdict) : vs.countP Verdict.hears =
    vs.count .emitted + vs.count .unchanged + vs.count .dropped + vs.count .stale +
      vs.count .conflict := by
  induction vs with
  | nil => rfl
  | cons v rest ih =>
    rw [List.countP_cons, ih]
    cases v <;> simp [Verdict.hears] <;> omega

/-- At rest the counters of the workers count verdicts, and each verdict has left its trace: a
packet, a report, or a packet that was merged without one. -/
structure Closed (r : Receiver) (vs : List Verdict) (heard : Nat) : Prop where
  emitted : r.roster.counters.dataEmitted = UInt64.ofNat (vs.count .emitted)
  unchanged : r.roster.counters.dataUnchanged = UInt64.ofNat (vs.count .unchanged)
  dropped : r.roster.counters.packetsDropped = UInt64.ofNat (vs.count .dropped)
  stale : r.roster.counters.sequenceRejected = UInt64.ofNat (vs.count .stale)
  conflicts : r.roster.counters.conflicts = UInt64.ofNat (vs.count .conflict)
  timeouts : r.roster.counters.timeouts = UInt64.ofNat (vs.count .timedOut)
  overflows : r.roster.counters.queueOverflows = 0
  packets : r.roster.outlet.packets.received.length = vs.count .emitted
  reports : ∀ t : Trouble,
    r.roster.outlet.reports.received.countP (fun e => e.trouble = t) = vs.count t.verdict
  heard : vs.countP Verdict.hears = heard

theorem closed_of_balanced (hf : Faithful timeout book r.roster) (hr : r.roster.AtRest)
    (hb : Balanced vs n r.roster) : Closed r vs n := by
  have hquiet := Roster.quiet_of_atRest hf hr
  obtain ⟨hpackets, hreports⟩ := (Roster.atRest_iff.1 hr).1
  obtain ⟨hcounters, hbpackets, hbreports, hheard⟩ := id hb
  rw [hquiet.inHand, Delivery.Sink.flow, hpackets] at hbpackets
  rw [hquiet.inHand, Delivery.Sink.flow, hreports] at hbreports
  rw [hquiet.ahead] at hheard
  exact {
    emitted := congrArg Counters.dataEmitted hcounters
    unchanged := congrArg Counters.dataUnchanged hcounters
    dropped := congrArg Counters.packetsDropped hcounters
    stale := congrArg Counters.sequenceRejected hcounters
    conflicts := congrArg Counters.conflicts hcounters
    timeouts := congrArg Counters.timeouts hcounters
    overflows := congrArg Counters.queueOverflows hcounters
    packets := by simpa using hbpackets
    reports := by simpa using hbreports
    heard := by simpa using hheard }

/-- A datagram that is read is invalid, unmatched, merged or for a universe that does not merge it,
and whatever becomes of it is counted once, as long as no counter has gone round. At rest every
packet and every report that was counted has been received, and nothing was refused for a full
queue. Whatever is asked next, the receiver comes to rest again. -/
theorem accounting {settings : Settings} {r₀ r : Receiver} {log : List Entry}
    (h₀ : Receiver.start settings = .ok r₀) (h : Run r₀ log r) (hrange : InRange log r) :
    r.roster.counters.datagramsReceived.toNat = (log.filterMap Entry.datagram?).length ∧
      r.roster.counters.bytesReceived.toNat =
        ((log.filterMap Entry.datagram?).map fun b => min b.length 639).sum ∧
      r.roster.counters.datagramsReceived.toNat =
        r.roster.counters.datagramsInvalid.toNat + r.roster.counters.packetsUnmatched.toNat +
        r.roster.counters.queueOverflows.toNat + r.roster.counters.dataEmitted.toNat +
        r.roster.counters.dataUnchanged.toNat + r.roster.counters.packetsDropped.toNat +
        r.roster.counters.sequenceRejected.toNat + r.roster.counters.conflicts.toNat +
        log.countP Entry.isForeign ∧
      r.roster.counters.queueOverflows = 0 ∧
      r.roster.counters.readTimeouts.toNat = log.countP Entry.isDeadline ∧
      r.roster.counters.dataEmitted.toNat = r.roster.outlet.packets.received.length ∧
      r.roster.counters.conflicts.toNat =
        r.roster.outlet.reports.received.countP (fun e => e.trouble = .sourcesExceeded) ∧
      r.roster.counters.timeouts.toNat =
        r.roster.outlet.reports.received.countP (fun e => e.trouble = .timeout) ∧
      ∀ q, Run r₀ (log ++ [(r, q)]) (r.serve q).settle := by
  obtain ⟨⟨⟨book, hf⟩, hreads, vs, hb⟩, hrest⟩ := audited_run h₀ h
  obtain ⟨hdatagrams, hbytes, hdeadlines, htimeouts⟩ := hrange
  have hclosed := closed_of_balanced hf hrest hb
  have hfates := fates log
  have hkinds := countP_hears vs
  rw [hclosed.heard] at hkinds
  have hsilences := hclosed.reports .timeout
  have hconflicts := hclosed.reports .sourcesExceeded
  simp only [Trouble.verdict] at hsilences hconflicts
  rw [hsilences] at htimeouts
  -- No counter exceeds the datagrams, but for those that have a bound of their own.
  have nDatagrams := toNat_of_eq hreads.datagrams hdatagrams
  have nBytes := toNat_of_eq hreads.bytes hbytes
  have nDeadlines := toNat_of_eq hreads.deadlines hdeadlines
  have nTimeouts := toNat_of_eq hclosed.timeouts htimeouts
  have nInvalid := toNat_of_eq hreads.invalid (by omega)
  have nUnmatched := toNat_of_eq hreads.unmatched (by omega)
  have nEmitted := toNat_of_eq hclosed.emitted (by omega)
  have nUnchanged := toNat_of_eq hclosed.unchanged (by omega)
  have nDropped := toNat_of_eq hclosed.dropped (by omega)
  have nStale := toNat_of_eq hclosed.stale (by omega)
  have nConflicts := toNat_of_eq hclosed.conflicts (by omega)
  have nOverflows : r.roster.counters.queueOverflows.toNat = 0 := by
    rw [hclosed.overflows]
    rfl
  refine ⟨nDatagrams, nBytes, ?_, hclosed.overflows, nDeadlines, ?_, ?_, ?_, h.settled hrest⟩
  · omega
  · exact nEmitted.trans hclosed.packets.symm
  · exact nConflicts.trans hconflicts.symm
  · exact nTimeouts.trans hsilences.symm

/-- One of two datagrams changes the data of an active universe and the other holds no packet; then
nothing comes for longer than the timeout. -/
theorem accounting_two_datagrams : ∃ log r,
    Run ⟨{}, Roster.start 2500000000 64, true⟩ log r ∧
      log.map (fun e => e.datagram?.isSome) = [false, true, true, false] ∧
      r.roster.counters.datagramsReceived.toNat = 2 ∧
      r.roster.counters.bytesReceived.toNat = 130 ∧
      r.roster.counters.dataEmitted.toNat = r.roster.outlet.packets.received.length ∧
      r.roster.counters.timeouts.toNat = 1 := by
  have h₀ : Receiver.start {} = .ok ⟨{}, Roster.start 2500000000 64, true⟩ := rfl
  have hrest := (audited_start h₀).2
  have h1 := Run.settled .nil hrest (.activate 1 0)
  have h2 := h1.settled (audited_run h₀ h1).2
    (.read (.datagram (Packet.encode { universeId := 1, slots := [42] })) 5)
  have h3 := h2.settled (audited_run h₀ h2).2 (.read (.datagram [1, 2, 3]) 6)
  have h4 := h3.settled (audited_run h₀ h3).2 (.read .nothing 3000000000)
  obtain ⟨hdatagrams, hbytes, -, -, -, hemitted, -, htimeouts, -⟩ :=
    accounting h₀ h4 ⟨by decide +kernel, by decide +kernel, by decide +kernel, by decide +kernel⟩
  exact ⟨_, _, h4, rfl, hdatagrams, hbytes.trans (by decide +kernel), hemitted,
    htimeouts.trans (by decide +kernel)⟩

end Receiver

end StreamingAcn
