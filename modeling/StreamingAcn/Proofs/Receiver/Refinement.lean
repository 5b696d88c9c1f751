/-
StreamingAcn.Proofs.Receiver.Refinement — a receiver is its roster, fed with decoded packets.

What a receiver reads either is a step for its roster or means nothing to it: a datagram that holds
a packet is dispatched, a read that ends without one is dispatched as word that nothing came, and a
datagram that holds no packet or a read that was interrupted leaves no trace but in the counters of
the loop. The loop sees only so much of a datagram, but what it does not see makes no difference.

Definitions:

* `Roster.Call`, `Request`: what is asked of a roster and of a receiver;
* `Request.call?`: what a request of a receiver asks of its roster, if anything;
* `Request.isNoise`: a request that nothing comes of.

Main statement: `refines_roster`.
-/
import StreamingAcn.Proofs.Receiver.Course
import StreamingAcn.Proofs.Roster.Crew
import StreamingAcn.Proofs.Roster.Counting
import StreamingAcn.Proofs.Roster.Settling
import StreamingAcn.Receiver

namespace StreamingAcn

open Relation (ReflTransGen)

/-! ## Datagrams that are seen in part -/

theorem Packet.decode_of_too_long {octets : Octets} (h : maxLength < octets.length) :
    decode octets = .error (.tooLong octets.length) := by
  have hshort : ¬ octets.length < headerLength := by
    simp only [maxLength, headerLength] at h ⊢
    omega
  rw [decode, dif_neg hshort, dif_pos h]

/-- The part of a datagram that is read holds the packet that all of it holds, if it holds one. -/
theorem Packet.decode_take {octets : Octets} {p : Packet} :
    decode (octets.take bufferLength) = .ok p ↔ decode octets = .ok p := by
  by_cases h : octets.length ≤ bufferLength
  · rw [List.take_of_length_le h]
  · have hseen : (octets.take bufferLength).length = bufferLength :=
      List.length_take_of_le (Nat.le_of_not_le h)
    have hlong : maxLength < octets.length := Nat.lt_trans (by decide) (Nat.lt_of_not_le h)
    rw [decode_of_too_long hlong, decode_of_too_long (by rw [hseen]; decide)]
    simp

/-! ## Requests -/

namespace Roster

/-- What is asked of a roster that joins no groups. -/
inductive Call
  | activate (u : UniverseId) (now : Nat)
  | deactivate (u : UniverseId)
  | dispatch (packet : Option Packet) (now : Nat)
  deriving DecidableEq

def serve (r : Roster) : Call → Roster
  | .activate u now => r.activate u now (.ok ())
  | .deactivate u => r.deactivate u
  | .dispatch packet now => r.dispatch packet now

/-- What the owner of a roster is answered. -/
def answer? (r : Roster) : Call → Option (Except ReceiverError Bool)
  | .activate u _ => some (r.activation u (.ok ())).result
  | .deactivate u => some (.ok (r.isActive u))
  | .dispatch _ _ => none

def system : System Roster Call (Except ReceiverError Bool) := ⟨Stir, serve, answer?⟩

end Roster

namespace Receiver

/-- What is asked of a receiver, by its owner or by what it reads. -/
inductive Request
  | read (reading : Reading) (now : Nat)
  | activate (u : UniverseId) (now : Nat)
  | deactivate (u : UniverseId)
  | stop
  deriving DecidableEq

namespace Request

/-- What the request asks of the roster, judged by all octets of a datagram. -/
def call? : Request → Option Roster.Call
  | .read (.datagram octets) now =>
    match Packet.decode octets with
    | .ok p => some (.dispatch (some p) now)
    | .error _ => none
  | .read .nothing now => some (.dispatch none now)
  | .read .interrupted _ | .read .failed _ | .stop => none
  | .activate u now => some (.activate u now)
  | .deactivate u => some (.deactivate u)

/-- Whether the request is the end of the receiver. -/
def isLast : Request → Bool
  | .read .failed _ | .stop => true
  | .read _ _ | .activate _ _ | .deactivate _ => false

/-- Whether the request is a datagram that holds no packet, or an interrupted read. -/
def isNoise (q : Request) : Bool := q.call?.isNone && !q.isLast

end Request

def serve (r : Receiver) : Request → Receiver
  | .read reading now => r.read reading now
  | .activate u now => r.activate u now
  | .deactivate u => r.deactivate u
  | .stop => r.stop

/-- The answer without what it tells about universes that were active before. -/
def forget (answer : Except ReceiverError Bool) : Except ReceiverError Unit :=
  answer.map fun _ => ()

/-- What the owner of a receiver is answered. -/
def answer? (r : Receiver) : Request → Option (Except ReceiverError Unit)
  | .activate u _ => some (forget (r.activation u).result)
  | .deactivate _ => some r.deactivation
  | .read _ _ | .stop => none

/-- What happens by itself happens in the roster. -/
def Stir (r r' : Receiver) : Prop :=
  ∃ roster, Roster.Stir r.roster roster ∧ r' = { r with roster := roster }

def system : System Receiver Request (Except ReceiverError Unit) := ⟨Stir, serve, answer?⟩

end Receiver

/-! ## Counters that noise changes -/

/-- The counters with those that noise changes in place of their own. -/
def Counters.withNoise (c d : Counters) : Counters :=
  { c with
    datagramsReceived := d.datagramsReceived
    bytesReceived := d.bytesReceived
    datagramsInvalid := d.datagramsInvalid }

theorem Counters.apart_withNoise (d : Counters) : Apart fun c => c.withNoise d where
  tally _ v := by cases v <;> rfl
  overflow _ := rfl

namespace Receiver

open Roster (Call)

/-- A datagram is counted, and dispatched if all of it holds a packet. -/
theorem takeDatagram_of_ok {roster : Roster} {octets : Octets} {now : Nat} {p : Packet}
    (h : Packet.decode octets = .ok p) :
    takeDatagram roster octets now =
      if roster.isMatched (some p) then
        (roster.count (·.datagram (octets.take bufferLength).length)).dispatch (some p) now
      else ((roster.count (·.datagram (octets.take bufferLength).length)).dispatch
        (some p) now).count Counters.unmatched := by
  rw [takeDatagram, Packet.decode_take.2 h]
  rfl

theorem takeDatagram_of_error {roster : Roster} {octets : Octets} {now : Nat}
    (h : ∀ p, Packet.decode octets ≠ .ok p) :
    takeDatagram roster octets now =
      (roster.count (·.datagram (octets.take bufferLength).length)).count Counters.invalid := by
  rw [takeDatagram]
  cases hd : Packet.decode (octets.take bufferLength) with
  | error _ => rfl
  | ok p => exact absurd (Packet.decode_take.1 hd) (h p)

/-! ## A receiver and its roster -/

/-- A running receiver and an open roster that differ in the counters of the loop at most. -/
structure InStep (r : Receiver) (t : Roster) : Prop where
  isRunning : r.isRunning = true
  isOpen : t.isClosed = false
  roster : ∃ d, r.roster = t.count fun c => c.withReads d

variable {r : Receiver} {t : Roster}

theorem isClosed_serve (t : Roster) (c : Call) : (t.serve c).isClosed = t.isClosed := by
  cases c with
  | activate u now =>
    rw [Roster.serve, Roster.activate]
    split <;> rfl
  | deactivate u =>
    rw [Roster.serve, Roster.deactivate]
    split <;> rfl
  | dispatch packet now => rfl

theorem takeDatagram_withReads {octets : Octets} {now : Nat} {p : Packet}
    (h : Packet.decode octets = .ok p) (d : Counters) :
    ∃ d', takeDatagram (t.count fun c => c.withReads d) octets now =
      (t.dispatch (some p) now).count fun c => c.withReads d' := by
  have hcounted : (t.count fun c => c.withReads d).count
      (·.datagram (octets.take bufferLength).length) =
        t.count fun c => c.withReads (d.datagram (octets.take bufferLength).length) := rfl
  rw [takeDatagram_of_ok h, hcounted, Roster.dispatch_count (Counters.apart_withReads _)]
  split
  · exact ⟨_, rfl⟩
  · exact ⟨(d.datagram _).unmatched, rfl⟩

theorem takeDatagram_withReads_of_error (t : Roster) (now : Nat) {octets : Octets}
    (h : ∀ p, Packet.decode octets ≠ .ok p) (d : Counters) :
    ∃ d', takeDatagram (t.count fun c => c.withReads d) octets now =
      t.count fun c => c.withReads d' := by
  rw [takeDatagram_of_error h]
  exact ⟨(d.datagram _).invalid, rfl⟩

/-- A request that asks something of the roster is that call, and is answered as the call is. -/
theorem InStep.serves (h : InStep r t) {q : Request} {c : Call} (hc : q.call? = some c) :
    InStep (r.serve q) (t.serve c) ∧ r.answer? q = (t.answer? c).map forget := by
  obtain ⟨settings, roster, isRunning⟩ := r
  obtain ⟨rfl, hopen, d, rfl⟩ := h
  have hclosed := (isClosed_serve t c).trans hopen
  cases q with
  | read reading now =>
    cases reading with
    | datagram octets =>
      cases hd : Packet.decode octets with
      | error e => simp [Request.call?, hd] at hc
      | ok p =>
        obtain rfl : Call.dispatch (some p) now = c := by simpa [Request.call?, hd] using hc
        exact ⟨⟨rfl, hclosed, takeDatagram_withReads hd d⟩, rfl⟩
    | nothing =>
      obtain rfl := Option.some.inj hc
      refine ⟨⟨rfl, hclosed, d.readTimeout, ?_⟩, rfl⟩
      show (t.count fun c => c.withReads d.readTimeout).dispatch none now = _
      exact Roster.dispatch_count (Counters.apart_withReads d.readTimeout) none now
    | interrupted => cases hc
    | failed => cases hc
  | activate u now =>
    obtain rfl := Option.some.inj hc
    exact ⟨⟨rfl, hclosed, d, Roster.activate_count u now (.ok ())⟩, rfl⟩
  | deactivate u =>
    obtain rfl := Option.some.inj hc
    have hopen' : ¬ (t.count fun c => c.withReads d).isClosed = true := by
      rw [Bool.not_eq_true]
      exact hopen
    refine ⟨⟨?_, hclosed, d, ?_⟩, ?_⟩
    · simp only [serve, deactivate, if_neg hopen']
    · simp only [serve, deactivate, if_neg hopen']
      exact Roster.deactivate_count u
    · simp only [answer?, deactivation, if_neg hopen']
      rfl
  | stop => cases hc

theorem decode_ne_of_call?_none {octets : Octets} {now : Nat}
    (h : (Request.read (.datagram octets) now).call? = none) :
    ∀ p, Packet.decode octets ≠ .ok p := by
  intro p hp
  simp [Request.call?, hp] at h

/-- A request that asks nothing of the roster does nothing, unless it is the last one. -/
theorem InStep.skips (h : InStep r t) {q : Request} (hlast : q.isLast = false)
    (hc : q.call? = none) : InStep (r.serve q) t ∧ r.answer? q = none := by
  obtain ⟨settings, roster, isRunning⟩ := r
  obtain ⟨rfl, hopen, d, rfl⟩ := h
  cases q with
  | read reading now =>
    cases reading with
    | datagram octets =>
      have hdecode := decode_ne_of_call?_none hc
      obtain ⟨d', hd'⟩ := takeDatagram_withReads_of_error t now hdecode d
      exact ⟨⟨rfl, hopen, d', hd'⟩, rfl⟩
    | nothing => cases hc
    | interrupted => exact ⟨⟨rfl, hopen, d, rfl⟩, rfl⟩
    | failed => cases hlast
  | activate u now => cases hc
  | deactivate u => cases hc
  | stop => cases hlast

/-- Up to its end a receiver stays in step with a roster that is asked what it asks of its own. -/
theorem tracks_roster : System.Tracks system Roster.system InStep (fun q => q.isLast = false)
    Request.call? forget where
  forth := by
    rintro ⟨settings, roster, isRunning⟩ s' t ⟨hrunning, hopen, d, rfl⟩ ⟨roster', hs, rfl⟩
    obtain ⟨t', ht, rfl⟩ := Roster.stir_of_count (Counters.apart_withReads d) hs
    exact ⟨t', ht, hrunning, (Roster.settings_stir ht).2.1.trans hopen, d, rfl⟩
  back := by
    rintro ⟨settings, roster, isRunning⟩ t t' ⟨hrunning, hopen, d, rfl⟩ ht
    exact ⟨_, ⟨_, Roster.stir_count (Counters.apart_withReads d) ht, rfl⟩, hrunning,
      (Roster.settings_stir ht).2.1.trans hopen, d, rfl⟩
  serves h _ hc := h.serves hc
  skips h ha hc := h.skips ha hc

/-! ## Noise -/

/-- Two receivers that differ in the counters that noise changes at most. -/
structure Alike (r r' : Receiver) : Prop where
  settings : r'.settings = r.settings
  isRunning : r'.isRunning = r.isRunning
  roster : ∃ d, r.roster = r'.roster.count fun c => c.withNoise d

variable {r' : Receiver}

theorem takeDatagram_withNoise (t : Roster) (octets : Octets) (now : Nat) (d : Counters) :
    ∃ d', takeDatagram (t.count fun c => c.withNoise d) octets now =
      (takeDatagram t octets now).count fun c => c.withNoise d' := by
  by_cases h : ∃ p, Packet.decode octets = .ok p
  · obtain ⟨p, hp⟩ := h
    have hcounted : (t.count fun c => c.withNoise d).count
        (·.datagram (octets.take bufferLength).length) =
          (t.count (·.datagram (octets.take bufferLength).length)).count
            fun c => c.withNoise (d.datagram (octets.take bufferLength).length) := rfl
    have hmatched : (t.count fun c => c.withNoise d).isMatched (some p) =
        t.isMatched (some p) := rfl
    rw [takeDatagram_of_ok hp, takeDatagram_of_ok hp, hcounted, hmatched,
      Roster.dispatch_count (Counters.apart_withNoise _)]
    refine ⟨d.datagram (octets.take bufferLength).length, ?_⟩
    split <;> rfl
  · have hp := fun p hp => h ⟨p, hp⟩
    rw [takeDatagram_of_error hp, takeDatagram_of_error hp]
    exact ⟨(d.datagram _).invalid, rfl⟩

/-- Whatever is asked of them, two receivers that differ by noise go on to do so. -/
theorem Alike.serve (h : Alike r r') (q : Request) :
    Alike (r.serve q) (r'.serve q) ∧ r.answer? q = r'.answer? q := by
  obtain ⟨settings, roster, isRunning⟩ := r
  obtain ⟨rfl, rfl, d, rfl⟩ := h
  obtain ⟨settings, t, isRunning⟩ := r'
  cases q with
  | read reading now =>
    cases isRunning with
    | false => exact ⟨⟨rfl, rfl, d, rfl⟩, rfl⟩
    | true =>
      cases reading with
      | datagram octets =>
        obtain ⟨d', hd'⟩ := takeDatagram_withNoise t octets now d
        exact ⟨⟨rfl, rfl, d', hd'⟩, rfl⟩
      | nothing =>
        refine ⟨⟨rfl, rfl, d, ?_⟩, rfl⟩
        exact Roster.dispatch_count (r := t.count Counters.readTimeout)
          (Counters.apart_withNoise d) none now
      | interrupted => exact ⟨⟨rfl, rfl, d, rfl⟩, rfl⟩
      | failed => exact ⟨⟨rfl, rfl, d, Roster.shutdown_count⟩, rfl⟩
  | activate u now => exact ⟨⟨rfl, rfl, d, Roster.activate_count u now (.ok ())⟩, rfl⟩
  | deactivate u =>
    have hclosed : (t.count fun c => c.withNoise d).isClosed = t.isClosed := rfl
    cases hc : t.isClosed with
    | true =>
      refine ⟨⟨?_, ?_, d, ?_⟩, ?_⟩ <;>
        simp [Receiver.serve, deactivate, answer?, deactivation, hclosed, hc]
    | false =>
      refine ⟨⟨?_, ?_, d, ?_⟩, ?_⟩ <;>
        simp [Receiver.serve, deactivate, answer?, deactivation, hclosed, hc,
          Roster.deactivate_count]
  | stop => exact ⟨⟨rfl, rfl, d, Roster.shutdown_count⟩, rfl⟩

/-- Noise makes no difference but to the counters that it changes. -/
theorem Alike.noise (h : Alike r r') {q : Request} (hq : q.isNoise = true) :
    Alike (r.serve q) r' ∧ r.answer? q = none := by
  obtain ⟨settings, roster, isRunning⟩ := r
  obtain ⟨rfl, rfl, d, rfl⟩ := h
  obtain ⟨settings, t, isRunning⟩ := r'
  obtain ⟨hcall, hlast⟩ := Bool.and_eq_true_iff.1 hq
  rw [Option.isNone_iff_eq_none] at hcall
  cases q with
  | read reading now =>
    refine ⟨?_, rfl⟩
    cases isRunning with
    | false => exact ⟨rfl, rfl, d, rfl⟩
    | true =>
      cases reading with
      | datagram octets =>
        have hdecode := decode_ne_of_call?_none hcall
        exact ⟨rfl, rfl, (d.datagram _).invalid, takeDatagram_of_error hdecode⟩
      | nothing => cases hcall
      | interrupted => exact ⟨rfl, rfl, d, rfl⟩
      | failed => cases hlast
  | activate u now => cases hcall
  | deactivate u => cases hcall
  | stop => cases hlast

/-- A receiver stays alike to one that is spared the noise. -/
theorem tracks_quiet : System.Tracks system system Alike (fun _ => True)
    (Option.guard fun q => !q.isNoise) id where
  forth := by
    rintro ⟨settings, roster, isRunning⟩ s' r' ⟨hsettings, hrunning, d, rfl⟩ ⟨roster', hs, rfl⟩
    obtain ⟨t', ht, rfl⟩ := Roster.stir_of_count (Counters.apart_withNoise d) hs
    exact ⟨_, ⟨t', ht, rfl⟩, hsettings, hrunning, d, rfl⟩
  back := by
    rintro ⟨settings, roster, isRunning⟩ r' s' ⟨hsettings, hrunning, d, rfl⟩ ⟨t', ht, rfl⟩
    exact ⟨_, ⟨_, Roster.stir_count (Counters.apart_withNoise d) ht, rfl⟩, hsettings, hrunning, d,
      rfl⟩
  serves := by
    intro r r' q c h _ hc
    obtain ⟨rfl, -⟩ := Option.guard_eq_some_iff.1 hc
    rw [Option.map_id_fun, id]
    exact h.serve q
  skips := by
    intro r r' q h _ hc
    exact h.noise (by simpa using hc)

theorem noise_of_too_long {octets : Octets} (h : 638 < octets.length) (now : Nat) :
    (Request.read (.datagram octets) now).isNoise = true := by
  simp [Request.isNoise, Request.call?, Request.isLast, Packet.decode_of_too_long h]

/-! ## Results -/

/-- A receiver and a roster that show the same to those who use them. -/
structure Shows (r : Receiver) (t : Roster) : Prop where
  packets : r.roster.outlet.packets = t.outlet.packets
  reports : r.roster.outlet.reports = t.outlet.reports
  active : r.roster.active = t.active

theorem InStep.shows (h : InStep r t) : Shows r t := by
  obtain ⟨settings, roster, isRunning⟩ := r
  obtain ⟨-, -, d, rfl⟩ := h
  exact ⟨rfl, rfl, rfl⟩

theorem Alike.same (h : Alike r r') : r'.roster.outlet.packets = r.roster.outlet.packets ∧
    r'.roster.outlet.reports = r.roster.outlet.reports ∧ r'.roster.active = r.roster.active ∧
    r.roster.counters = r'.roster.counters.withNoise r.roster.counters := by
  obtain ⟨settings, roster, isRunning⟩ := r
  obtain ⟨-, -, d, rfl⟩ := h
  exact ⟨rfl, rfl, rfl, rfl⟩

theorem alike_refl (r : Receiver) : Alike r r := ⟨rfl, rfl, r.roster.counters, rfl⟩

theorem inStep_start {settings : Settings} {r : Receiver} (h : Receiver.start settings = .ok r) :
    InStep r (Roster.start settings.timeout settings.sinkCapacity) := by
  unfold Receiver.start at h
  split at h
  · cases h
  · rw [← Except.ok.inj h]
    exact ⟨rfl, rfl, {}, rfl⟩

/-- Up to its end a receiver does what a roster does that is given the same activations and
deactivations, a step without a packet for every read that ended without a datagram, and the packets
of those datagrams that hold one, judged by all of their octets; and it does nothing that such a
roster does not do. Datagrams that hold no packet, those that are too long among them, and
interrupted reads can be added to or taken from a script wherever they are: no answer, nothing that
goes out and no other counter depends on them. -/
theorem refines_roster {settings : Settings} {r₀ : Receiver}
    (h : Receiver.start settings = .ok r₀) :
    (∀ script answers r, (∀ q ∈ script, q.isLast = false) →
        system.Course r₀ script answers r → ∃ known t,
          Roster.system.Course (Roster.start settings.timeout settings.sinkCapacity)
            (script.filterMap Request.call?) known t ∧
          answers = known.map forget ∧ Shows r t) ∧
      (∀ script known t, (∀ q ∈ script, q.isLast = false) →
        Roster.system.Course (Roster.start settings.timeout settings.sinkCapacity)
          (script.filterMap Request.call?) known t →
        ∃ r, system.Course r₀ script (known.map forget) r ∧ Shows r t) ∧
      (∀ octets now, 638 < octets.length →
        (Request.read (.datagram octets) now).isNoise = true) ∧
      ∀ script script' answers r,
        script.filter (fun q => !q.isNoise) = script'.filter (fun q => !q.isNoise) →
        system.Course r₀ script answers r → ∃ r', system.Course r₀ script' answers r' ∧
          r'.roster.outlet.packets = r.roster.outlet.packets ∧
          r'.roster.outlet.reports = r.roster.outlet.reports ∧
          r'.roster.active = r.roster.active ∧
          r'.roster.counters = r.roster.counters.withNoise r'.roster.counters := by
  have hstart := inStep_start h
  refine ⟨?_, ?_, fun octets now ho => noise_of_too_long ho now, ?_⟩
  · intro script answers r hlast hc
    obtain ⟨known, t, ht, hanswers, hstep⟩ := tracks_roster.forward hlast hstart hc
    exact ⟨known, t, ht, hanswers, hstep.shows⟩
  · intro script known t hlast hc
    obtain ⟨r, hr, hstep⟩ := tracks_roster.backward hlast hstart hc
    exact ⟨r, hr, hstep.shows⟩
  · intro script script' answers r hquiet hc
    -- Both scripts are compared with the one that is left when their noise is taken out.
    obtain ⟨known, m, hm, hanswers, hleft⟩ :=
      tracks_quiet.forward (fun _ _ => trivial) (alike_refl r₀) hc
    rw [List.filterMap_eq_filter, hquiet, ← List.filterMap_eq_filter] at hm
    obtain ⟨r', hr', hright⟩ := tracks_quiet.backward (fun _ _ => trivial) (alike_refl r₀) hm
    rw [List.map_id] at hanswers hr'
    obtain ⟨hp, hre, ha, hcounters⟩ := hleft.same
    obtain ⟨hp', hre', ha', hcounters'⟩ := hright.same
    refine ⟨r', hanswers ▸ hr', hp'.symm.trans hp, hre'.symm.trans hre, ha'.symm.trans ha, ?_⟩
    calc r'.roster.counters
        = m.roster.counters.withNoise r'.roster.counters := hcounters'
      _ = (m.roster.counters.withNoise r.roster.counters).withNoise r'.roster.counters := rfl
      _ = r.roster.counters.withNoise r'.roster.counters := by rw [← hcounters]

/-- A packet comes and is received, then nothing comes for longer than the timeout. Two datagrams
without a packet, one of them a packet with too much behind it, and an interrupted read make no
difference to that. -/
theorem refines_roster_through_noise :
    let packet : Packet := { universeId := 1, slots := [42] }
    let quiet : List Request := [.activate 1 0, .read (.datagram packet.encode) 5,
      .read .nothing 3000000000, .deactivate 1, .deactivate 1]
    let noisy : List Request := [.activate 1 0, .read (.datagram [1, 2, 3]) 4,
      .read (.datagram packet.encode) 5,
      .read (.datagram (packet.encode ++ List.replicate 600 0)) 6, .read .interrupted 7,
      .read .nothing 3000000000, .deactivate 1, .deactivate 1]
    ∃ r r', system.Course ⟨{}, Roster.start 2500000000 64, true⟩ noisy [.ok (), .ok (), .ok ()] r ∧
      r.roster.outlet.packets.received = [packet] ∧
      r.roster.outlet.reports.received = [⟨1, .timeout⟩] ∧ r.roster.active = [] ∧
      system.Course ⟨{}, Roster.start 2500000000 64, true⟩ quiet [.ok (), .ok (), .ok ()] r' ∧
      r'.roster.outlet.packets = r.roster.outlet.packets ∧
      r'.roster.outlet.reports = r.roster.outlet.reports := by
  intro packet quiet noisy
  let first : Roster := (Roster.start 2500000000 64).activate 1 0 (.ok ())
  let heard : Roster := first.dispatch (some packet) 5
  let silent : Roster := heard.settle.dispatch none 3000000000
  have hdrained : heard.outlet.Drained := Roster.drained_dispatch ⟨rfl, rfl⟩ (some packet) 5
  obtain ⟨hs, hrest⟩ := Roster.settle_spec hdrained
  obtain ⟨hs', -⟩ :=
    Roster.settle_spec (Roster.drained_dispatch (Roster.atRest_iff.1 hrest).1 none 3000000000)
  have hlater : Roster.system.Course silent.settle [.deactivate 1, .deactivate 1]
      [.ok true, .ok false] ((silent.settle.deactivate 1).deactivate 1) :=
    .cons .refl (.cons .refl (.nil .refl))
  have hc : Roster.system.Course (Roster.start 2500000000 64)
      [.activate 1 0, .dispatch (some packet) 5, .dispatch none 3000000000, .deactivate 1,
        .deactivate 1]
      [.ok true, .ok true, .ok false] ((silent.settle.deactivate 1).deactivate 1) :=
    .cons .refl (.cons .refl (.cons hs (hlater.after hs')))
  have hcalls : noisy.filterMap Request.call? = [.activate 1 0, .dispatch (some packet) 5,
      .dispatch none 3000000000, .deactivate 1, .deactivate 1] := by decide +kernel
  rw [← hcalls] at hc
  have hstart : Receiver.start {} = .ok ⟨{}, Roster.start 2500000000 64, true⟩ := rfl
  obtain ⟨-, hback, -, hspared⟩ := refines_roster hstart
  obtain ⟨r, hr, hshows⟩ := hback noisy _ _ (by decide) hc
  have hquiet : noisy.filter (fun q => !q.isNoise) = quiet.filter (fun q => !q.isNoise) := by
    decide +kernel
  obtain ⟨r', hr', hpackets, hreports, -⟩ := hspared noisy quiet _ r hquiet hr
  refine ⟨r, r', hr, ?_, ?_, hshows.active, hr', hpackets, hreports⟩
  · rw [hshows.packets]
    decide +kernel
  · rw [hshows.reports]
    decide +kernel

end Receiver

end StreamingAcn
