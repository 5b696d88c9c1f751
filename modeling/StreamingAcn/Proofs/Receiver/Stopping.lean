/-
StreamingAcn.Proofs.Receiver.Stopping — a receiver that has stopped stays stopped.

A receiver ends in two ways, by a read that fails or by a request to stop, and both close its roster.
From then on nothing that is asked of it changes anything, and everything is refused that can be.
What its workers had taken on is not lost: they put it out before they let go of the sinks.

Definitions:

* `Request.Ends`: the requests that end a receiver;
* `Request.refusal?`: what a receiver answers that has ended;
* `Sound`: a receiver runs as long as its roster is open.

Main statements:

* `Sound.still`: nothing changes a receiver that has ended;
* `stopped_for_good`.
-/
import StreamingAcn.Proofs.Receiver.Refinement
import StreamingAcn.Proofs.Roster.Draining

namespace StreamingAcn

open Delivery (Outlet Worker)
open Relation (ReflTransGen)

/-- Every failure of a read but an interruption is the same to a receiver. -/
theorem Reading.ofError_of_ne {e : ReadError} (h : e ≠ .interrupted) : ofError e = .failed := by
  cases e with
  | interrupted => exact absurd rfl h
  | wouldBlock => rfl
  | timedOut => rfl
  | connectionReset => rfl
  | other cause => rfl

namespace Receiver

/-- Whether the request ends a receiver: a stop, or a read that fails and was not interrupted. -/
def Request.Ends (q : Request) : Prop :=
  q = .stop ∨ ∃ e now, e ≠ .interrupted ∧ q = .read (.ofError e) now

theorem Request.ends_iff {q : Request} : q.Ends ↔ q.isLast = true := by
  constructor
  · rintro (rfl | ⟨e, now, he, rfl⟩)
    · rfl
    · rw [Reading.ofError_of_ne he]
      rfl
  · intro h
    unfold isLast at h
    split at h
    · next now => exact .inr ⟨.wouldBlock, now, by simp, rfl⟩
    · exact .inl rfl
    · cases h
    · cases h
    · cases h

/-- What a receiver answers that has ended. -/
def Request.refusal? : Request → Option (Except ReceiverError Unit)
  | .activate u _ =>
    some (.error (if u.toNat < 1 ∨ 63999 < u.toNat then .invalidUniverse u else .closed))
  | .deactivate _ => some (.error .closed)
  | .read _ _ | .stop => none

/-! ## Stirs of a receiver -/

variable {r r' : Receiver} {q : Request}

theorem roster_stirs (hs : ReflTransGen Stir r r') :
    ReflTransGen Roster.Stir r.roster r'.roster := by
  induction hs with
  | refl => exact .refl
  | tail _ hs ih =>
    obtain ⟨roster, hroster, rfl⟩ := hs
    exact ih.tail hroster

theorem stirs_of_roster {roster : Roster} (hs : ReflTransGen Roster.Stir r.roster roster) :
    ReflTransGen Stir r { r with roster := roster } := by
  induction hs with
  | refl => exact .refl
  | tail _ hs ih => exact ih.tail ⟨_, hs, rfl⟩

/-- A receiver at rest stays as it is until something is asked of it. -/
theorem eq_of_atRest (hr : r.roster.AtRest) (hs : ReflTransGen Stir r r') : r' = r := by
  rcases hs.cases_head with h | ⟨m, ⟨roster, hroster, -⟩, -⟩
  · exact h.symm
  · exact absurd hroster (hr roster)

theorem exists_rest (r : Receiver) : ∃ r', ReflTransGen Stir r r' ∧ r'.roster.AtRest := by
  obtain ⟨roster, hs, hr⟩ := @exists_end_of_decreasing _ Roster.Stir Roster.effort
    (fun _ _ => Roster.effort_stir) r.roster
  exact ⟨_, stirs_of_roster hs, hr⟩

/-! ## Receivers that run as long as their rosters are open -/

/-- A receiver runs exactly as long as its roster is open. -/
structure Sound (r : Receiver) : Prop where
  isRunning : r.isRunning = !r.roster.isClosed
  tidy : r.roster.Tidy

theorem sound_start {settings : Settings} (h : Receiver.start settings = .ok r) : Sound r := by
  unfold Receiver.start at h
  split at h
  · cases h
  · rw [← Except.ok.inj h]
    exact ⟨rfl, Roster.tidy_start _ _⟩

theorem Sound.stir (h : Sound r) (hs : Stir r r') : Sound r' := by
  obtain ⟨roster, hroster, rfl⟩ := hs
  exact ⟨by rw [h.isRunning, (Roster.settings_stir hroster).2.1], h.tidy.stir hroster⟩

theorem Sound.stirs (h : Sound r) (hs : ReflTransGen Stir r r') : Sound r' := by
  induction hs with
  | refl => exact h
  | tail _ hs ih => exact ih.stir hs

theorem Sound.stop (h : Sound r) : Sound r.stop :=
  ⟨by rw [Receiver.stop, Roster.isClosed_shutdown]; rfl, h.tidy.shutdown⟩

theorem tidy_takeDatagram {roster : Roster} (h : roster.Tidy) (octets : Octets) (now : Nat) :
    (takeDatagram roster octets now).Tidy ∧
      (takeDatagram roster octets now).isClosed = roster.isClosed := by
  by_cases hp : ∃ p, Packet.decode octets = .ok p
  · obtain ⟨p, hp⟩ := hp
    rw [takeDatagram_of_ok hp]
    split
    · exact ⟨(h.count _).dispatch _ _, rfl⟩
    · exact ⟨((h.count _).dispatch _ _).count _, rfl⟩
  · rw [takeDatagram_of_error fun p h => hp ⟨p, h⟩]
    exact ⟨(h.count _).count _, rfl⟩

theorem Sound.read (h : Sound r) (reading : Reading) (now : Nat) : Sound (r.read reading now) := by
  unfold Receiver.read
  split
  · exact h
  · cases reading with
    | datagram octets =>
      obtain ⟨htidy, hclosed⟩ := tidy_takeDatagram h.tidy octets now
      exact ⟨by rw [hclosed]; exact h.isRunning, htidy⟩
    | nothing => exact ⟨h.isRunning, (h.tidy.count _).dispatch _ _⟩
    | interrupted => exact h
    | failed => exact h.stop

theorem Sound.serve (h : Sound r) (q : Request) : Sound (r.serve q) := by
  cases q with
  | read reading now => exact h.read reading now
  | activate u now =>
    have hclosed := isClosed_serve r.roster (.activate u now)
    exact ⟨h.isRunning.trans (congrArg _ hclosed.symm), h.tidy.activate u now (.ok ())⟩
  | deactivate u =>
    show Sound (r.deactivate u)
    unfold deactivate
    split
    · exact h
    · have hclosed := isClosed_serve r.roster (.deactivate u)
      exact ⟨h.isRunning.trans (congrArg _ hclosed.symm), h.tidy.deactivate u⟩
  | stop => exact h.stop

theorem Sound.course (h : Sound r) {script : List Request}
    {answers : List (Except ReceiverError Unit)} (course : system.Course r script answers r') :
    Sound r' := by
  induction course with
  | nil hs => exact h.stirs hs
  | cons hs _ ih => exact ih ((h.stirs hs).serve _)

/-! ## Receivers that have ended -/

/-- A request that ends a receiver closes its roster. -/
theorem Sound.end_roster (h : Sound r) (hq : q.Ends) : (r.serve q).roster = r.roster.shutdown := by
  rcases hq with rfl | ⟨e, now, he, rfl⟩
  · rfl
  · show (r.read (.ofError e) now).roster = _
    rw [Reading.ofError_of_ne he, Receiver.read]
    split
    · next hstopped =>
      have hclosed : r.roster.isClosed = true := by simpa [h.isRunning] using hstopped
      exact (if_pos hclosed).symm
    · rfl

/-- Nothing that is asked of a receiver that has ended changes it, and what can be is refused. -/
theorem Sound.still (h : Sound r) (hc : r.roster.isClosed = true) (q : Request) :
    r.serve q = r ∧ r.answer? q = q.refusal? := by
  have hstopped : r.isRunning = false := by rw [h.isRunning, hc]; rfl
  cases q with
  | read reading now =>
    refine ⟨?_, rfl⟩
    show r.read reading now = r
    exact if_pos (by rw [hstopped]; rfl)
  | activate u now =>
    have hact : r.activation u =
        .refused (if u.toNat < 1 ∨ 63999 < u.toNat then .invalidUniverse u else .closed) := by
      by_cases hu : u.toNat < 1 ∨ 63999 < u.toNat
      · simp only [activation, Roster.activation_eq, Roster.obstacle?, Roster.check_eq, if_pos hu,
          Option.getD_some]
      · simp only [activation, Roster.activation_eq, Roster.obstacle?, Roster.check_eq, if_neg hu, hc,
          if_true, Option.getD_some]
    refine ⟨?_, ?_⟩
    · show { r with roster := r.roster.activate u now (.ok ()) } = r
      rw [Roster.activate_of_not_activated]
      rw [show r.roster.activation u (.ok ()) = _ from hact]
      simp
    · rw [answer?, hact]
      rfl
  | deactivate u =>
    refine ⟨if_pos hc, ?_⟩
    rw [answer?, deactivation, if_pos hc]
    rfl
  | stop =>
    refine ⟨?_, rfl⟩
    show { r with roster := r.roster.shutdown, isRunning := false } = r
    rw [Roster.shutdown, if_pos hc, ← hstopped]

/-- Whatever is asked of a receiver that has ended, it does not get further than by itself. -/
theorem Sound.course_still (h : Sound r) (hc : r.roster.isClosed = true) {later : List Request}
    {refusals : List (Except ReceiverError Unit)} (course : system.Course r later refusals r') :
    ReflTransGen Stir r r' ∧ refusals = later.filterMap Request.refusal? := by
  induction course with
  | nil hs => exact ⟨hs, rfl⟩
  | @cons r m r' q later refusals hs _ ih =>
    have hm : m.roster.isClosed = true := (Roster.isClosed_stirs (roster_stirs hs)).trans hc
    obtain ⟨hserve, hanswer⟩ := (h.stirs hs).still hm q
    have hserve' : system.serve m q = m := hserve
    rw [hserve'] at ih
    obtain ⟨hstirs, hrefusals⟩ := ih (h.stirs hs) hm
    refine ⟨ReflTransGen.trans hs hstirs, ?_⟩
    have hanswer' : system.answer? m q = q.refusal? := hanswer
    rw [hanswer', hrefusals, List.filterMap_cons]
    cases q.refusal? <;> rfl

/-- A receiver runs until it has ended, and an interrupted read is nothing to it. Once a read has
failed in another way or a stop was requested, it comes to rest with both sinks empty and
disconnected, and before they are disconnected all that its workers had taken on and not discarded
has gone out, that of each worker in order. From then on, whatever is asked of it, it is not
running, no universe is active, requests to activate a universe are refused for its number or for the
receiver being closed, those to deactivate one for the receiver being closed, and nothing that is
asked changes anything; once the sinks are disconnected no counter changes either. -/
theorem stopped_for_good {settings : Settings} {r₀ r : Receiver} {script : List Request}
    {answers : List (Except ReceiverError Unit)} (h : Receiver.start settings = .ok r₀)
    (course : system.Course r₀ script answers r) :
    ((∀ q ∈ script, ¬ q.Ends) → r.isRunning = true ∧ r.roster.isClosed = false) ∧
      (∀ now, r.serve (.read (.ofError .interrupted) now) = r) ∧
      ∀ q : Request, q.Ends →
        (∃ r', ReflTransGen Stir (r.serve q) r' ∧ r'.roster.AtRest) ∧
        ∀ r', ReflTransGen Stir (r.serve q) r' →
          (r'.roster.AtRest → r'.roster.sinksClosed = true ∧ r'.roster.outlet.Drained) ∧
          (r'.roster.sinksClosed = true → ∃ items,
            Interleaves r.roster.backlog items ∧
            Outlet.Passed r.roster.outlet r'.roster.outlet items) ∧
          ∀ later refusals r'', system.Course r' later refusals r'' →
            r''.isRunning = false ∧ r''.roster.active = [] ∧
            refusals = later.filterMap Request.refusal? ∧ (∀ q, r''.serve q = r'') ∧
            (r'.roster.sinksClosed = true → r''.roster.sinksClosed = true ∧
              r''.roster.counters = r'.roster.counters ∧
              r''.roster.outlet.packets.flow = r'.roster.outlet.packets.flow ∧
              r''.roster.outlet.reports.flow = r'.roster.outlet.reports.flow) ∧
            (r'.roster.AtRest → r'' = r') := by
  have hsound : Sound r := (sound_start h).course course
  refine ⟨?_, ?_, ?_⟩
  · intro hscript
    have hlast : ∀ q ∈ script, q.isLast = false := by
      intro q hq
      rw [← Bool.not_eq_true, ← Request.ends_iff]
      exact hscript q hq
    obtain ⟨-, t, -, -, hstep⟩ := tracks_roster.forward hlast (inStep_start h) course
    have hopen : r.roster.isClosed = false := by simpa [hstep.isRunning] using hsound.isRunning
    exact ⟨hstep.isRunning, hopen⟩
  · intro now
    show r.read .interrupted now = r
    unfold Receiver.read
    split <;> rfl
  · intro q hq
    refine ⟨exists_rest _, ?_⟩
    intro r' hs
    have hs' := roster_stirs hs
    rw [hsound.end_roster hq] at hs'
    have hsound' : Sound r' := (hsound.serve q).stirs hs
    have hclosed' : r'.roster.isClosed = true :=
      (Roster.isClosed_stirs hs').trans (Roster.isClosed_shutdown _)
    refine ⟨?_, Roster.passed_of_shutdown hsound.tidy hs', ?_⟩
    · intro hr
      exact ⟨(hsound'.tidy.sinks_of_atRest hr).trans hclosed', (Roster.atRest_iff.1 hr).1⟩
    · intro later refusals r'' hlater
      obtain ⟨hstirs, hrefusals⟩ := hsound'.course_still hclosed' hlater
      have hsound'' : Sound r'' := hsound'.course hlater
      have hclosed'' : r''.roster.isClosed = true :=
        (Roster.isClosed_stirs (roster_stirs hstirs)).trans hclosed'
      refine ⟨?_, ?_, hrefusals, fun q => (hsound''.still hclosed'' q).1, ?_, ?_⟩
      · rw [hsound''.isRunning, hclosed'']
        rfl
      · obtain ⟨g, hg⟩ := hsound''.tidy.agrees
        obtain rfl := hg.isClosed.1 hclosed''
        rw [Roster.active, Directory.keys, hg.workers_of_closed, List.map_nil]
      · intro hsinks
        exact Roster.stirs_of_sinksClosed hsinks (roster_stirs hstirs)
      · intro hr
        exact eq_of_atRest hr hstirs

/-- The packet that was read before the connection is reset is received after that, and then
nothing is. -/
theorem stopped_for_good_after_reset :
    let packet : Packet := { universeId := 1, slots := [42] }
    ∃ r r' r'' : Receiver,
      system.Course ⟨{}, Roster.start 2500000000 64, true⟩
        [.activate 1 0, .read (.ofError .interrupted) 4, .read (.datagram packet.encode) 5]
        [.ok ()] r ∧
      r.isRunning = true ∧
      ReflTransGen Stir (r.serve (.read (.ofError .connectionReset) 6)) r' ∧ r'.roster.AtRest ∧
      r'.roster.sinksClosed = true ∧ r'.roster.outlet.packets.received = [packet] ∧
      system.Course r' [.activate 2 7, .activate 0 8, .deactivate 1, .stop,
        .read (.datagram packet.encode) 9] [.error .closed, .error (.invalidUniverse 0),
        .error .closed] r'' ∧
      r'' = r' := by
  intro packet
  let r : Receiver := (((⟨{}, Roster.start 2500000000 64, true⟩ : Receiver).serve
    (.activate 1 0)).serve (.read (.ofError .interrupted) 4)).serve
      (.read (.datagram packet.encode) 5)
  have hstart : Receiver.start {} = .ok ⟨{}, Roster.start 2500000000 64, true⟩ := rfl
  have course : system.Course ⟨{}, Roster.start 2500000000 64, true⟩
      [.activate 1 0, .read (.ofError .interrupted) 4, .read (.datagram packet.encode) 5]
      [.ok ()] r := .cons .refl (.cons .refl (.cons .refl (.nil .refl)))
  obtain ⟨hrunning, -, hended⟩ := stopped_for_good hstart course
  obtain ⟨⟨r', hstirs, hrest⟩, hfinal⟩ :=
    hended (.read (.ofError .connectionReset) 6) (.inr ⟨.connectionReset, 6, by simp, rfl⟩)
  obtain ⟨hsinks, hpassed, hlater⟩ := hfinal r' hstirs
  obtain ⟨hclosed, hdrained⟩ := hsinks hrest
  -- The packet is all that was to be put out when the connection was reset.
  obtain ⟨items, hmerged, hout⟩ := hpassed hclosed
  have hbacklog : r.roster.backlog = [[.packet packet]] := by decide +kernel
  rw [hbacklog] at hmerged
  have hitems : items = [.packet packet] := List.perm_singleton.1 hmerged.perm
  have hreceived : r'.roster.outlet.packets.received = [packet] := by
    have hflow := hout.packets
    rw [hitems, Delivery.Sink.flow, hdrained.1, List.append_nil] at hflow
    rw [hflow]
    decide +kernel
  obtain ⟨refusals, r'', hcourse⟩ := system.exists_course r' [.activate 2 7, .activate 0 8,
    .deactivate 1, .stop, .read (.datagram packet.encode) 9]
  obtain ⟨-, -, hrefusals, -, -, hsame⟩ := hlater _ _ _ hcourse
  obtain rfl : refusals = [.error .closed, .error (.invalidUniverse 0), .error .closed] := hrefusals
  refine ⟨r, r', r'', course, ?_, hstirs, hrest, hclosed, hreceived, hcourse, hsame hrest⟩
  refine (hrunning fun q hq => ?_).1
  rw [Request.ends_iff]
  revert q
  decide

end Receiver

end StreamingAcn
