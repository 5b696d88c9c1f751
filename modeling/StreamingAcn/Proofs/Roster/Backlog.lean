/-
StreamingAcn.Proofs.Roster.Backlog — one universe under load.

Steps are offered to the worker of the only active universe while it works, while it waits for room
in a sink, and while its consumer receives or does not; at some point the roster may be shut down.
The order of all this is open. What the worker has taken on it handles once and in order, and what
comes of it reaches the consumer once and in order, however long the worker is kept waiting. Only a
full queue refuses a step, and the packets among the refused steps are counted.

Definitions:

* `Offer`, `Loaded`: a step that was offered, and the rosters that offers can lead to;
* `accepted`: the steps that got into the queue;
* `Stage`: a worker that is active, on its way out, or gone;
* `Settles`: what was accepted is what is pending, in hand, in the sinks or received.

Main statement: `no_step_lost`.
-/
import StreamingAcn.Proofs.Roster.Crew
import StreamingAcn.Proofs.Roster.Isolation

namespace StreamingAcn

open Arbitration (Arbiter)
open Delivery (Item Outlet Pipeline Step Worker queueCapacity)
open Relation (ReflTransGen)

/-! ## Offers to a worker -/

namespace Delivery

namespace Worker

variable {w : Worker}

theorem offer_of_room (hg : w.isFinished = false) (h : w.queue.length < queueCapacity) (s : Step) :
    w.offer s = { w with queue := w.queue ++ [s] } := by
  have hadm : w.admission = .queued := by simp [admission, hg, h]
  rw [offer, if_pos hadm]

theorem offer_of_full (hg : w.isFinished = false) (h : ¬ w.queue.length < queueCapacity)
    (s : Step) : w.offer s = w := by
  have hadm : w.admission = .full := by simp [admission, hg, h]
  rw [offer, hadm, if_neg (by decide)]

end Worker

/-- Offering to a worker that is not done counts a packet that finds a full queue. -/
theorem Outlet.offered_eq {w : Worker} (hg : w.isFinished = false) (o : Outlet) (s : Step) :
    o.offered w s =
      if ¬ w.queue.length < queueCapacity ∧ s.packet.isSome then
        { o with counters := o.counters.overflow }
      else o := by
  by_cases h : w.queue.length < queueCapacity <;> simp [offered, Worker.admission, hg, h]

end Delivery

namespace Roster

variable {r r' : Roster} {u : UniverseId}

theorem called_dispatch {packet : Option Packet} {now : Nat} {answer : Bool}
    (h : Called r (.dispatch packet now answer) r') :
    r' = r.dispatch packet now ∧ answer = r.isMatched packet := by
  cases h with
  | dispatch _ _ order ho =>
    rw [visit_eq_dispatch ho]
    refine ⟨rfl, ?_⟩
    cases packet with
    | none => rfl
    | some p => cases hp : r.isActive p.universeId <;> simp [isMatched, Option.filter, hp]

/-- A step that was offered to the worker of a universe. -/
structure Offer where
  packet : Option Packet
  time : Nat
  /-- Whether the step did not get into the queue. -/
  isRefused : Bool
  /-- Whether the dispatch said that the packet found its universe. -/
  answer : Bool

namespace Offer

/-- What the offer means for a universe. -/
def step (u : UniverseId) (o : Offer) : Step := stepFor o.packet o.time u

/-- Whether the offer brings a universe a packet. -/
def carries (u : UniverseId) (o : Offer) : Bool := o.packet.any fun p => p.universeId = u

/-- Whether the offer costs a universe a packet. -/
def isLoss (u : UniverseId) (o : Offer) : Bool := o.isRefused && o.carries u

end Offer

/-- The steps that got into the queue, oldest first. -/
def accepted (u : UniverseId) (log : List Offer) : List Step :=
  (log.filter fun o => !o.isRefused).map (Offer.step u)

/-- The rosters that offers to the worker of a universe lead to, with anything in between. -/
inductive Loaded (u : UniverseId) (start : Roster) : List Offer → Roster → Prop
  | start : Loaded u start [] start
  | offer {log : List Offer} {r r' : Roster} {w w' : Worker} {packet : Option Packet} {now : Nat}
      {answer : Bool} (h : Loaded u start log r) (hw : r.workers.find? u = some w)
      (hc : Called r (.dispatch packet now answer) r') (hw' : r'.workers.find? u = some w') :
      Loaded u start (log ++ [⟨packet, now, decide (w'.queue = w.queue), answer⟩]) r'
  | stir {log : List Offer} {r r' : Roster} (h : Loaded u start log r) (hs : Stir r r') :
      Loaded u start log r'
  | shutdown {log : List Offer} {r r' : Roster} (h : Loaded u start log r)
      (hc : Called r .shutdown r') : Loaded u start log r'

/-! ## The only worker -/

/-- Where the only worker of a roster is. -/
inductive Stage (u : UniverseId) (r : Roster) : Option Worker → Prop
  | serving {w : Worker} (hw : r.workers.entries = [(u, w)]) (hl : r.leaving = [])
      (hc : r.isClosed = false) (hs : w.Serving) : Stage u r (some w)
  | leaving {w : Worker} (hw : r.workers.entries = []) (hl : r.leaving = [w])
      (hc : r.isClosed = true) (ha : w.isActive = true) (hh : w.isHeld = false)
      (hq : w.isFinished = true → w.queue = []) : Stage u r (some w)
  | gone (hw : r.workers.entries = []) (hl : r.leaving = []) (hc : r.isClosed = true) :
      Stage u r none

variable {worker : Option Worker}

theorem Stage.crew (h : Stage u r worker) : r.crew = worker.toList := by
  cases h with
  | serving hw hl => simp [Roster.crew, Directory.values, hw, hl]
  | leaving hw hl => simp [Roster.crew, Directory.values, hw, hl]
  | gone hw hl => simp [Roster.crew, Directory.values, hw, hl]

theorem Stage.keeps (h : Stage u r worker) : ∀ w ∈ worker, w.Keeps := by
  intro w hw
  cases h with
  | serving _ _ _ hs => exact Option.mem_some.1 hw ▸ Worker.keeps_of_active hs.active
  | leaving _ _ _ ha => exact Option.mem_some.1 hw ▸ Worker.keeps_of_active ha
  | gone => cases hw

theorem Stage.queue_of_finished (h : Stage u r worker) :
    ∀ w ∈ worker, w.isFinished = true → w.queue = [] := by
  intro w hw hf
  cases h with
  | serving _ _ _ hs =>
    obtain rfl := Option.mem_some.1 hw
    rw [hs.going] at hf
    cases hf
  | leaving _ _ _ _ _ hq =>
    obtain rfl := Option.mem_some.1 hw
    exact hq hf
  | gone => cases hw

theorem find?_of_entries {d : Directory UniverseId Worker} {k : UniverseId} {w v : Worker}
    (h : d.entries = [(u, w)]) : d.find? k = some v ↔ k = u ∧ v = w := by
  rw [← Directory.mem_entries_iff, h, List.mem_singleton, Prod.mk.injEq]

/-- What happens by itself leaves the worker where it is, or takes one that is done away. -/
theorem Stage.stir (h : Stage u r worker) (hf : r.outlet.Fits) (hs : Stir r r') :
    ∃ worker', Stage u r' worker' := by
  cases h with
  | @serving w hw hl hc hserving =>
    cases hs with
    | @active k w' a p hw' ha hq =>
      obtain ⟨rfl, rfl⟩ := (find?_of_entries hw).1 hw'
      obtain ⟨hserving', -⟩ := Pipeline.act?_due (p := ⟨w', r.outlet⟩) hserving hf ha hq
      have hentries : (r.workers.insert k p.worker).entries = [] ++ [(k, p.worker)] :=
        Directory.entries_insert_middle hw
      exact ⟨_, .serving hentries hl hc hserving'⟩
    | leaving hl' => simp [hl] at hl'
    | gone hl' => simp [hl] at hl'
    | packet => exact ⟨_, .serving hw hl hc hserving⟩
    | report => exact ⟨_, .serving hw hl hc hserving⟩
  | @leaving w hw hl hc hactive hheld hqueue =>
    cases hs with
    | active hw' =>
      rw [entries_eq_nil_iff.1 hw] at hw'
      cases hw'
    | @leaving front back w' a p hl' ha hq =>
      obtain ⟨rfl, rfl, rfl⟩ : front = [] ∧ w' = w ∧ back = [] := by
        simpa [List.singleton_eq_append_iff] using hl.symm.trans hl'
      obtain ⟨hactive', hheld', -, hqueue'⟩ := Pipeline.flags_act? ha hq
      exact ⟨_, .leaving hw rfl hc (hactive'.trans hactive) (hheld'.trans hheld) hqueue'⟩
    | @gone front back w' hl' hdone =>
      obtain ⟨rfl, rfl, rfl⟩ : front = [] ∧ w' = w ∧ back = [] := by
        simpa [List.singleton_eq_append_iff] using hl.symm.trans hl'
      exact ⟨_, .gone hw rfl hc⟩
    | packet => exact ⟨_, .leaving hw hl hc hactive hheld hqueue⟩
    | report => exact ⟨_, .leaving hw hl hc hactive hheld hqueue⟩
  | gone hw hl hc =>
    cases hs with
    | active hw' =>
      rw [entries_eq_nil_iff.1 hw] at hw'
      cases hw'
    | leaving hl' => simp [hl] at hl'
    | gone hl' => simp [hl] at hl'
    | packet => exact ⟨_, .gone hw hl hc⟩
    | report => exact ⟨_, .gone hw hl hc⟩

theorem crew_eq_singleton {front back : List Worker} {w : Worker} (h : Stage u r worker)
    (hcrew : r.crew = front ++ w :: back) : worker = some w ∧ front = [] ∧ back = [] := by
  rw [h.crew] at hcrew
  cases worker with
  | none => simp at hcrew
  | some v =>
    obtain ⟨rfl, rfl, rfl⟩ : front = [] ∧ w = v ∧ back = [] := by
      simpa [List.singleton_eq_append_iff] using hcrew
    exact ⟨rfl, rfl, rfl⟩

/-! ## What becomes of accepted steps -/

/-- What was accepted is handled or pending; what came of it has gone out or is in hand. -/
structure Settles (a : Arbiter) (o : Outlet) (steps : List Step) (r : Roster) : Prop where
  fits : r.outlet.Fits
  account : ∃ handled out, steps = handled ++ r.pending ∧ a.items handled = out ++ r.inHand ∧
    Outlet.Passed o r.outlet out ∧ ∀ w ∈ r.crew, w.arbiter = a.after handled

variable {a : Arbiter} {o : Outlet} {steps : List Step}

theorem pending_singleton {w : Worker} (h : r.crew = [w]) : r.pending = w.pending := by
  simp [pending, h]

theorem inHand_singleton {w : Worker} (h : r.crew = [w]) : r.inHand = w.item?.toList := by
  simp [inHand, h]

/-- Where there is only one worker, the account of the roster is that of its pipeline. -/
theorem settles_iff_conveys {w : Worker} (hcrew : r.crew = [w]) :
    Settles a o steps r ↔ Pipeline.Conveys a o steps ⟨w, r.outlet⟩ := by
  have hpending := pending_singleton hcrew
  have hhand := inHand_singleton hcrew
  constructor
  · rintro ⟨hfits, handled, out, hsteps, hitems, hpassed, hknows⟩
    rw [hpending] at hsteps
    rw [hhand] at hitems
    exact ⟨hfits, handled, out, hsteps, hitems, hpassed, hknows w (by simp [hcrew])⟩
  · rintro ⟨hfits, handled, out, hsteps, hitems, hpassed, hknows⟩
    refine ⟨hfits, handled, out, ?_, ?_, hpassed, ?_⟩
    · rw [hpending]
      exact hsteps
    · rw [hhand]
      exact hitems
    · simpa [hcrew] using hknows

/-- A deed of the only worker keeps the account. -/
theorem Settles.deed {w v : Worker} (h : Settles a o steps r) (hcrew : r.crew = [w])
    (hcrew' : r'.crew = [v]) (hf : r'.outlet.Fits)
    (hd : Pipeline.Deed ⟨w, r.outlet⟩ ⟨v, r'.outlet⟩) : Settles a o steps r' :=
  (settles_iff_conveys hcrew').2 (((settles_iff_conveys hcrew).1 h).deed hf hd)

/-- What happens by itself keeps the account. -/
theorem Settles.stir (h : Settles a o steps r) (hstage : Stage u r worker) (hs : Stir r r') :
    Settles a o steps r' := by
  have hfits := fits_stir h.fits hs
  cases change_of_stir hs with
  | acts hcrew hcrew' ha hq =>
    obtain ⟨rfl, rfl, rfl⟩ := crew_eq_singleton hstage hcrew
    exact h.deed hcrew hcrew' hfits
      (Pipeline.deed_of_act? (hstage.keeps _ rfl) h.fits ha hq)
  | @leaves front back w hcrew hcrew' hf houtlet =>
    obtain ⟨rfl, rfl, rfl⟩ := crew_eq_singleton hstage hcrew
    obtain ⟨handled, out, hsteps, hitems, hpassed, -⟩ := h.account
    obtain ⟨hpending, hitem⟩ := Worker.idle_of_finished hf (hstage.queue_of_finished w rfl hf)
    refine ⟨hfits, handled, out, ?_, ?_, houtlet ▸ hpassed, ?_⟩
    · rw [hsteps, pending_singleton hcrew, hpending, pending, hcrew']
      rfl
    · rw [hitems, inHand_singleton hcrew, hitem, inHand, hcrew']
      rfl
    · simp [hcrew']
  | receives hcrew hreceived =>
    obtain ⟨handled, out, hsteps, hitems, hpassed, hknows⟩ := h.account
    refine ⟨hfits, handled, out, ?_, ?_, ?_, ?_⟩
    · rw [hsteps, pending, pending, hcrew]
    · rw [hitems, inHand, inHand, hcrew]
    · exact ⟨hreceived.packets.trans hpassed.packets, hreceived.reports.trans hpassed.reports⟩
    · rw [hcrew]
      exact hknows

/-! ## Calls -/

/-- What an offer does to the only worker. -/
theorem dispatch_serving {w : Worker} (hw : r.workers.entries = [(u, w)]) (packet : Option Packet)
    (now : Nat) :
    (r.dispatch packet now).workers.entries = [(u, w.offer (stepFor packet now u))] ∧
      (r.dispatch packet now).outlet = r.outlet.offered w (stepFor packet now u) := by
  constructor
  · simp [dispatch, Directory.map, hw]
  · simp [dispatch, hw]

theorem isMatched_serving {w : Worker} (hw : r.workers.entries = [(u, w)])
    (packet : Option Packet) : r.isMatched packet = packet.any fun p => p.universeId = u := by
  cases packet with
  | none => rfl
  | some p =>
    rw [Bool.eq_iff_iff]
    simp only [isMatched, Option.any_some, isActive, Directory.contains, Option.isSome_iff_exists,
      find?_of_entries hw, decide_eq_true_eq]
    constructor
    · rintro ⟨_, h, _⟩
      exact h
    · intro h
      exact ⟨w, h, rfl⟩

theorem isSome_stepFor (packet : Option Packet) (now : Nat) :
    (stepFor packet now u).packet.isSome = packet.any fun p => p.universeId = u := by
  cases packet with
  | none => rfl
  | some p => by_cases h : p.universeId = u <;> simp [stepFor, Option.filter, h]

/-- The counters once an offer to a worker was refused or not. -/
def Offer.counted (u : UniverseId) (o : Offer) (c : Counters) : Counters :=
  if o.isLoss u then c.overflow else c

/-- Everything that an offer to a serving worker can come to. -/
structure Offered (u : UniverseId) (r : Roster) (w : Worker) (o : Offer) (r' : Roster)
    (w' : Worker) : Prop where
  refused : o.isRefused = true ↔ w.queue.length = queueCapacity
  answer : o.answer = o.carries u
  queue : w' = if o.isRefused then w else { w with queue := w.queue ++ [o.step u] }
  stage : Stage u r' (some w')
  packets : r'.outlet.packets = r.outlet.packets
  reports : r'.outlet.reports = r.outlet.reports
  counters : r'.counters = o.counted u r.counters

/-- An offer to a serving worker is refused for a full queue, and for nothing else. -/
theorem offered_of_called {w w' : Worker} {packet : Option Packet} {now : Nat} {answer : Bool}
    (hstage : Stage u r (some w)) (hw : r.workers.find? u = some w)
    (hbound : w.queue.length ≤ queueCapacity) (hc : Called r (.dispatch packet now answer) r')
    (hw' : r'.workers.find? u = some w') :
    Offered u r w ⟨packet, now, decide (w'.queue = w.queue), answer⟩ r' w' := by
  obtain ⟨rfl, rfl⟩ := called_dispatch hc
  cases hstage with
  | leaving hentries =>
    rw [entries_eq_nil_iff.1 hentries] at hw
    cases hw
  | serving hentries hleaving hclosed hserving =>
    obtain ⟨hentries', houtlet⟩ := dispatch_serving hentries packet now
    obtain ⟨-, rfl⟩ := (find?_of_entries hentries').1 hw'
    have hanswer := isMatched_serving hentries packet
    have hstage' : Stage u (r.dispatch packet now) (some (w.offer (stepFor packet now u))) :=
      .serving hentries' hleaving hclosed (Worker.serving_offer hserving _)
    obtain ⟨hpackets, hreports⟩ := sinks_dispatch r packet now
    rw [Outlet.offered_eq hserving.going, isSome_stepFor] at houtlet
    by_cases hroom : w.queue.length < queueCapacity
    · have hoffer := Worker.offer_of_room hserving.going hroom (stepFor packet now u)
      have hqueue : (w.offer (stepFor packet now u)).queue ≠ w.queue := by simp [hoffer]
      refine ⟨?_, hanswer, ?_, hstage', hpackets, hreports, ?_⟩
      · simp only [hqueue, decide_false, Bool.false_eq_true, false_iff]
        exact Nat.ne_of_lt hroom
      · simp only [hqueue, decide_false, Bool.false_eq_true, if_false]
        exact hoffer
      · simp [counters, houtlet, hroom, Offer.counted, Offer.isLoss, hqueue]
    · have hoffer := Worker.offer_of_full hserving.going hroom (stepFor packet now u)
      have hqueue : (w.offer (stepFor packet now u)).queue = w.queue := by rw [hoffer]
      refine ⟨?_, hanswer, ?_, hstage', hpackets, hreports, ?_⟩
      · simp only [hqueue, decide_true, true_iff]
        exact Nat.le_antisymm hbound (Nat.le_of_not_lt hroom)
      · simp only [hqueue, decide_true, if_true]
        exact hoffer
      · simp only [counters, houtlet, hroom, not_false_eq_true, true_and, Offer.counted,
          Offer.isLoss, hqueue, decide_true, Bool.true_and, Offer.carries]
        split <;> rfl

/-! ## Runs -/

/-- What holds of every roster that offers to one worker lead to. -/
structure Orderly (u : UniverseId) (a : Arbiter) (o : Outlet) (log : List Offer) (r : Roster) :
    Prop where
  stage : ∃ worker, Stage u r worker
  bound : ∀ w ∈ r.crew, w.queue.length ≤ queueCapacity
  settles : Settles a o (accepted u log) r
  overflows : r.counters.queueOverflows = UInt64.ofNat (log.countP (Offer.isLoss u))
  answers : ∀ offer ∈ log, offer.answer = offer.carries u

variable {log : List Offer}

theorem overflows_stir (hs : Stir r r') :
    r'.counters.queueOverflows = r.counters.queueOverflows := by
  rcases counters_stir hs with h | ⟨v, h⟩
  · rw [h]
  · rw [h]
    cases v <;> rfl

theorem bound_stir (h : ∀ w ∈ r.crew, w.queue.length ≤ queueCapacity) (hs : Stir r r') :
    ∀ w ∈ r'.crew, w.queue.length ≤ queueCapacity := by
  cases change_of_stir hs with
  | @acts front back w v a hcrew hcrew' ha hq =>
    obtain ⟨-, -, hlength, -⟩ := Pipeline.flags_act? ha hq
    rw [hcrew] at h
    intro x hx
    have hx' : x = v ∨ x ∈ front ++ back := by simpa [hcrew', or_left_comm] using hx
    rcases hx' with rfl | hx'
    · exact Nat.le_trans hlength (h w (by simp))
    · exact h x (mem_around hx')
  | leaves hcrew hcrew' hf houtlet =>
    rw [hcrew] at h
    rw [hcrew']
    intro w hw
    exact h w (mem_around hw)
  | receives hcrew hreceived =>
    rw [hcrew]
    exact h

theorem Orderly.stir (h : Orderly u a o log r) (hs : Stir r r') : Orderly u a o log r' := by
  obtain ⟨worker, hstage⟩ := h.stage
  exact ⟨hstage.stir h.settles.fits hs, bound_stir h.bound hs, h.settles.stir hstage hs,
    (overflows_stir hs).trans h.overflows, h.answers⟩

theorem accepted_concat (u : UniverseId) (log : List Offer) (offer : Offer) :
    accepted u (log ++ [offer]) =
      accepted u log ++ (if offer.isRefused then [] else [offer.step u]) := by
  rw [accepted, accepted, List.filter_append, List.map_append]
  cases h : offer.isRefused <;> simp [h]

/-- An offer that is not refused makes its step pending. -/
theorem Settles.offered {w w' : Worker} {offer : Offer} (h : Settles a o steps r)
    (hcrew : r.crew = [w]) (ho : Offered u r w offer r' w') :
    Settles a o (steps ++ (if offer.isRefused then [] else [offer.step u])) r' := by
  have hconveys := (settles_iff_conveys hcrew).1 h
  have hqueue := ho.queue
  rw [settles_iff_conveys ho.stage.crew]
  cases hr : offer.isRefused with
  | false =>
    rw [hr] at hqueue
    exact hconveys.queued hqueue ho.packets ho.reports
  | true =>
    rw [hr] at hqueue
    rw [if_pos rfl, List.append_nil]
    exact hconveys.carry (h.fits.of_sinks ho.packets ho.reports) hqueue (congrArg _ ho.packets)
      (congrArg _ ho.reports)

theorem bound_offered {w w' : Worker} {offer : Offer} (h : w.queue.length ≤ queueCapacity)
    (ho : Offered u r w offer r' w') : w'.queue.length ≤ queueCapacity := by
  have hrefused := ho.refused
  rw [ho.queue]
  split
  · exact h
  · next hr =>
    rw [List.length_append, List.length_singleton]
    exact Nat.lt_of_le_of_ne h fun heq => hr (hrefused.2 heq)

theorem overflows_offered {w w' : Worker} {offer : Offer} {n : Nat}
    (h : r.counters.queueOverflows = UInt64.ofNat n) (ho : Offered u r w offer r' w') :
    r'.counters.queueOverflows = UInt64.ofNat (n + if offer.isLoss u then 1 else 0) := by
  rw [ho.counters, Offer.counted]
  split
  · rw [UInt64.ofNat_add, ← h]
    rfl
  · exact h

theorem Orderly.offer {w w' : Worker} {packet : Option Packet} {now : Nat} {answer : Bool}
    (h : Orderly u a o log r) (hw : r.workers.find? u = some w)
    (hc : Called r (.dispatch packet now answer) r') (hw' : r'.workers.find? u = some w') :
    Orderly u a o (log ++ [⟨packet, now, decide (w'.queue = w.queue), answer⟩]) r' := by
  obtain ⟨worker, hstage⟩ := h.stage
  obtain ⟨front, back, hcrew, -⟩ := crew_of_find? hw
  obtain ⟨rfl, rfl, rfl⟩ := crew_eq_singleton hstage hcrew
  have hbound : w.queue.length ≤ queueCapacity := h.bound w (by simp [hcrew])
  have ho := offered_of_called hstage hw hbound hc hw'
  -- From here on only what `Offered` says of the offer matters.
  generalize (⟨packet, now, decide (w'.queue = w.queue), answer⟩ : Offer) = offer at ho ⊢
  refine ⟨⟨_, ho.stage⟩, ?_, ?_, ?_, ?_⟩
  · rw [ho.stage.crew]
    simpa using bound_offered hbound ho
  · rw [accepted_concat]
    exact h.settles.offered hcrew ho
  · rw [List.countP_append, List.countP_singleton]
    exact overflows_offered h.overflows ho
  · intro x hx
    rcases List.mem_append.1 hx with hx | hx
    · exact h.answers x hx
    · rw [List.mem_singleton.1 hx]
      exact ho.answer

/-- A shutdown sends the only worker on its way, with everything that it has taken on. -/
theorem Orderly.shutdown (h : Orderly u a o log r) (hc : Called r .shutdown r') :
    Orderly u a o log r' := by
  cases hc
  obtain ⟨worker, hstage⟩ := h.stage
  by_cases hclosed : r.isClosed
  · rw [Roster.shutdown, if_pos hclosed]
    exact h
  · cases hstage with
    | leaving _ _ hc => exact absurd hc hclosed
    | gone _ _ hc => exact absurd hc hclosed
    | @serving w hw hl hc hs =>
      have hcrew : r.crew = [w] := (Stage.serving hw hl hc hs).crew
      have hroster : r.shutdown =
          { r with workers := Directory.empty, leaving := [w.release], isClosed := true } := by
        rw [Roster.shutdown, if_neg hclosed, hl]
        simp [Directory.values, hw]
      have hcrew' : r.shutdown.crew = [w.release] := by
        rw [hroster]
        rfl
      have houtlet : r.shutdown.outlet = r.outlet := by rw [hroster]
      refine ⟨⟨some w.release, ?_⟩, ?_, ?_, ?_, h.answers⟩
      · rw [hroster]
        exact .leaving rfl rfl rfl hs.active rfl fun hf =>
          absurd (hs.going.symm.trans hf) (by decide)
      · rw [hcrew']
        simpa [hcrew, Worker.release] using h.bound
      -- To let a worker go is a deed that does nothing to its steps.
      · exact h.settles.deed hcrew hcrew' (houtlet ▸ h.settles.fits) (.nothing rfl rfl rfl houtlet)
      · rw [counters, houtlet]
        exact h.overflows

/-- A roster on which one universe was activated and nothing else happened. -/
def only (timeout capacity : Nat) (u : UniverseId) (since : Nat) : Roster :=
  (Roster.start timeout capacity).activate u since (.ok ())

theorem only_eq {timeout capacity since : Nat} (hu : UniverseId.check u = .ok ()) :
    only timeout capacity u since =
      { Roster.start timeout capacity with
        workers := Directory.empty.insert u (Worker.start u timeout since) } := by
  have hact : (Roster.start timeout capacity).activation u (.ok ()) = .activated := by
    rw [activation_eq, obstacle?, hu]
    rfl
  rw [only, activate, hact]
  rfl

theorem orderly_only {timeout capacity since : Nat} (hu : UniverseId.check u = .ok ()) :
    Orderly u (Arbiter.start u timeout since) (Outlet.start capacity) []
      (only timeout capacity u since) := by
  rw [only_eq hu]
  refine ⟨⟨some (Worker.start u timeout since), .serving rfl rfl rfl ⟨rfl, rfl, rfl⟩⟩,
    ?_, ?_, ?_, ?_⟩
  · simp [crew, Directory.values, Directory.insert, Directory.insertIn, Directory.empty, start,
      Worker.start]
  · refine ⟨⟨Nat.zero_le _, Nat.zero_le _⟩, [], [], rfl, rfl, ⟨rfl, rfl⟩, ?_⟩
    simp [crew, Directory.values, Directory.insert, Directory.insertIn, Directory.empty, start,
      Worker.start]
  · rfl
  · intro offer ho
    cases ho

theorem orderly_loaded {timeout capacity since : Nat} (hu : UniverseId.check u = .ok ())
    (h : Loaded u (only timeout capacity u since) log r) :
    Orderly u (Arbiter.start u timeout since) (Outlet.start capacity) log r := by
  induction h with
  | start => exact orderly_only hu
  | offer _ hw hc hw' ih => exact ih.offer hw hc hw'
  | stir _ hs ih => exact ih.stir hs
  | shutdown _ hc ih => exact ih.shutdown hc

/-! ## Rest -/

/-- Where nothing happens any more, nothing is pending or in hand, and nobody is on the way out. -/
theorem Stage.atRest (h : Stage u r worker) (hr : r.AtRest) :
    r.pending = [] ∧ r.inHand = [] ∧ r.sinksClosed = r.isClosed := by
  obtain ⟨-, hactive, hleaving⟩ := atRest_iff.1 hr
  cases h with
  | @serving w hw hl hc hs =>
    have hcrew : r.crew = [w] := (Stage.serving hw hl hc hs).crew
    obtain ⟨hmove, hitem⟩ := hactive u w ((find?_of_entries hw).2 ⟨rfl, rfl⟩)
    obtain ⟨hphase, hqueue⟩ := Worker.rested hs hmove hitem
    refine ⟨?_, ?_, ?_⟩
    · simp [pending_singleton hcrew, Worker.pending, hphase, hqueue]
    · simp [inHand_singleton hcrew, hitem]
    · simp [sinksClosed, hc]
  | @leaving w hw hl hc ha hh hq =>
    obtain ⟨⟨hmove, hitem⟩, hgoing⟩ := hleaving w (by simp [hl])
    rw [Worker.finished_of_released hh hmove hitem] at hgoing
    cases hgoing
  | gone hw hl hc =>
    have hcrew : r.crew = [] := (Stage.gone hw hl hc : Stage u r none).crew
    refine ⟨?_, ?_, ?_⟩
    · rw [pending, hcrew, List.flatMap_nil]
    · rw [inHand, hcrew, List.flatMap_nil]
    · simp [sinksClosed, hw, hl, hc]

/-- The consumer has received everything that some steps make an arbiter put out. -/
structure Delivered (a : Arbiter) (steps : List Step) (r : Roster) : Prop where
  packets : r.outlet.packets.received = (a.items steps).filterMap Item.packet?
  reports : r.outlet.reports.received = (a.items steps).filterMap Item.report?

theorem Orderly.stirs (h : Orderly u a o log r) (hs : ReflTransGen Stir r r') :
    Orderly u a o log r' := by
  induction hs with
  | refl => exact h
  | tail _ hs ih => exact ih.stir hs

theorem Orderly.delivered {capacity : Nat} (h : Orderly u a (Outlet.start capacity) log r)
    (hr : r.AtRest) : Delivered a (accepted u log) r ∧ r.sinksClosed = r.isClosed := by
  obtain ⟨worker, hstage⟩ := h.stage
  obtain ⟨hpending, hhand, hsinks⟩ := hstage.atRest hr
  obtain ⟨handled, out, hsteps, hitems, hpassed, -⟩ := h.settles.account
  obtain ⟨hpackets, hreports⟩ := (atRest_iff.1 hr).1
  rw [hpending, List.append_nil] at hsteps
  rw [hhand, List.append_nil] at hitems
  refine ⟨⟨?_, ?_⟩, hsinks⟩
  · rw [hsteps, hitems]
    simpa [Delivery.Sink.flow, hpackets, Outlet.start, Delivery.Sink.empty] using hpassed.packets
  · rw [hsteps, hitems]
    simpa [Delivery.Sink.flow, hreports, Outlet.start, Delivery.Sink.empty] using hpassed.reports

/-! ## Filling the queue -/

theorem dispatch_called (r : Roster) (packet : Option Packet) (now : Nat) :
    Called r (.dispatch packet now (r.isMatched packet)) (r.dispatch packet now) := by
  have hc := Called.dispatch packet now r.active (.refl _)
  obtain ⟨hroster, hanswer⟩ := called_dispatch hc
  rwa [hroster, hanswer] at hc

theorem isMatched_dispatch (r : Roster) (packet : Option Packet) (now : Nat) (p : Option Packet) :
    (r.dispatch packet now).isMatched p = r.isMatched p := by
  simp only [isMatched, isActive_dispatch]

/-- A worker that does nothing in the meantime queues whatever it is offered while it has room. -/
theorem Loaded.queued {start : Roster} {w : Worker} (offers : List (Option Packet × Nat))
    (h : Loaded u start log r) (hw : r.workers.find? u = some w) (hg : w.isFinished = false)
    (hd : r.outlet.Drained) (hroom : w.queue.length + offers.length ≤ queueCapacity) :
    ∃ r', Loaded u start (log ++ offers.map fun e => ⟨e.1, e.2, false, r.isMatched e.1⟩) r' ∧
      r'.workers.find? u =
        some { w with queue := w.queue ++ offers.map fun e => stepFor e.1 e.2 u } ∧
      r'.outlet.Drained ∧ ∀ p, r'.isMatched p = r.isMatched p := by
  induction offers generalizing log r w with
  | nil =>
    rw [List.map_nil, List.map_nil, List.append_nil, List.append_nil]
    exact ⟨r, h, hw, hd, fun _ => rfl⟩
  | cons e rest ih =>
    rw [List.length_cons] at hroom
    have hoffer := Worker.offer_of_room hg (by omega) (stepFor e.1 e.2 u)
    have hw' := find?_dispatch_of_some hw e.1 e.2
    have hnext := h.offer hw (dispatch_called r e.1 e.2) hw'
    rw [hoffer] at hw' hnext
    have hlonger : decide (w.queue ++ [stepFor e.1 e.2 u] = w.queue) = false := by simp
    rw [hlonger] at hnext
    obtain ⟨r', hloaded, hfind, hdrained, hmatched⟩ := ih hnext hw' hg (drained_dispatch hd e.1 e.2)
      (by rw [List.length_append, List.length_singleton]; omega)
    refine ⟨r', ?_, ?_, hdrained, fun p => (hmatched p).trans (isMatched_dispatch r e.1 e.2 p)⟩
    · simpa only [isMatched_dispatch, List.map_cons, List.append_assoc, List.singleton_append]
        using hloaded
    · simpa only [List.map_cons, List.append_assoc, List.singleton_append] using hfind

/-- A worker with a full queue refuses what it is offered. -/
theorem Loaded.refused {start : Roster} {w : Worker} (h : Loaded u start log r)
    (hw : r.workers.find? u = some w) (hg : w.isFinished = false)
    (hfull : w.queue.length = queueCapacity) (packet : Option Packet) (now : Nat) :
    Loaded u start (log ++ [⟨packet, now, true, r.isMatched packet⟩]) (r.dispatch packet now) ∧
      (r.dispatch packet now).workers.find? u = some w := by
  have hoffer := Worker.offer_of_full hg (by omega) (stepFor packet now u)
  have hw' := find?_dispatch_of_some hw packet now
  have hnext := h.offer hw (dispatch_called r packet now) hw'
  rw [hoffer] at hw' hnext
  rw [decide_eq_true (rfl : w.queue = w.queue)] at hnext
  exact ⟨hnext, hw'⟩

/-! ## Result -/

/-- Whatever happens between offers, the queue never holds more than 256 steps, a step is refused
exactly if it holds that many, and the packets among the refused steps are counted while the
dispatch says that they found their universe. What was received, what is in the sinks and what is in
hand is together what an arbiter puts out on the accepted steps that are not pending. Nothing goes
on for ever, and where nothing happens any more everything is received, and after a shutdown both
sinks are disconnected. -/
theorem no_step_lost {timeout capacity since : Nat} {u : UniverseId} {log : List Offer} {r : Roster}
    (hu : UniverseId.check u = .ok ()) (h : Loaded u (only timeout capacity u since) log r) :
    (∀ w ∈ r.crew, w.queue.length ≤ 256) ∧
      (∀ w packet now answer r', r.workers.find? u = some w →
        Called r (.dispatch packet now answer) r' → ∃ w', r'.workers.find? u = some w' ∧
          w'.queue = if w.queue.length = 256 then w.queue
            else w.queue ++ [stepFor packet now u]) ∧
      r.counters.queueOverflows = UInt64.ofNat (log.countP (Offer.isLoss u)) ∧
      (∀ offer ∈ log, offer.answer = offer.carries u) ∧
      (∃ handled, accepted u log = handled ++ r.pending ∧
        r.outlet.packets.received ++ r.outlet.packets.held ++ r.inHand.filterMap Item.packet? =
          ((Arbiter.start u timeout since).items handled).filterMap Item.packet? ∧
        r.outlet.reports.received ++ r.outlet.reports.held ++ r.inHand.filterMap Item.report? =
          ((Arbiter.start u timeout since).items handled).filterMap Item.report?) ∧
      (¬ ∃ f : Nat → Roster, f 0 = r ∧ ∀ n, Stir (f n) (f (n + 1))) ∧
      (∀ r', ReflTransGen Stir r r' → r'.AtRest →
        Delivered (Arbiter.start u timeout since) (accepted u log) r') ∧
      ∀ r' r'', Called r .shutdown r' → ReflTransGen Stir r' r'' → r''.AtRest →
        Delivered (Arbiter.start u timeout since) (accepted u log) r'' ∧
          r''.sinksClosed = true := by
  have horderly := orderly_loaded hu h
  refine ⟨horderly.bound, ?_, horderly.overflows, horderly.answers, ?_, ?_, ?_, ?_⟩
  · intro w packet now answer r' hw hc
    obtain ⟨worker, hstage⟩ := horderly.stage
    obtain ⟨front, back, hcrew, -⟩ := crew_of_find? hw
    obtain ⟨rfl, rfl, rfl⟩ := crew_eq_singleton hstage hcrew
    have hw' : r'.workers.find? u = some (w.offer (stepFor packet now u)) := by
      rw [(called_dispatch hc).1, find?_dispatch_of_some hw]
    have ho := offered_of_called hstage hw (horderly.bound w (by simp [hcrew])) hc hw'
    refine ⟨_, hw', ?_⟩
    split
    · next hfull =>
      rw [ho.queue, if_pos (ho.refused.2 hfull)]
    · next hroom =>
      rw [ho.queue, if_neg fun hr => hroom (ho.refused.1 hr)]
      rfl
  · obtain ⟨handled, out, hsteps, hitems, hpassed, -⟩ := horderly.settles.account
    refine ⟨handled, hsteps, ?_, ?_⟩
    · rw [hitems, List.filterMap_append]
      exact congrArg (· ++ _) hpassed.packets
    · rw [hitems, List.filterMap_append]
      exact congrArg (· ++ _) hpassed.reports
  · rintro ⟨f, -, hf⟩
    exact no_endless_stirring ⟨f, hf⟩
  · intro r' hs hr
    exact ((horderly.stirs hs).delivered hr).1
  · intro r' r'' hc hs hr
    obtain ⟨hdelivered, hsinks⟩ := ((horderly.shutdown hc).stirs hs).delivered hr
    refine ⟨hdelivered, ?_⟩
    cases hc
    rw [hsinks, isClosed_stirs hs, isClosed_shutdown]

/-- While the worker does nothing, 256 steps are queued, two packets among them. Then a packet and an
absent step are refused, and only the packet is counted. The roster is shut down, and both packets
that were queued are received before the sinks close. -/
theorem no_step_lost_past_full_queue :
    let first : Packet := { universeId := 1, sequenceNumber := 1, slots := [42] }
    let last : Packet := { first with sequenceNumber := 2, slots := [43], slots_le := by decide }
    let lost : Packet := { first with sequenceNumber := 3, slots := [44], slots_le := by decide }
    let queued : List (Option Packet × Nat) :=
      (some first, 5) :: List.replicate 254 (none, 6) ++ [(some last, 7)]
    let log : List Offer := queued.map (fun e => ⟨e.1, e.2, false, e.1.isSome⟩) ++
      [⟨some lost, 8, true, true⟩] ++ [⟨none, 9, true, false⟩]
    ∃ r, Loaded 1 (only 10 0 1 0) log r ∧
      (∃ w, r.workers.find? 1 = some w ∧ w.queue.length = 256) ∧
      r.counters.queueOverflows = 1 ∧
      ∃ r' r'', Called r .shutdown r' ∧ ReflTransGen Stir r' r'' ∧ r''.AtRest ∧
        r''.sinksClosed = true ∧ r''.outlet.packets.received = [first, last] := by
  intro first last lost queued log
  have hw₀ : (only 10 0 1 0).workers.find? 1 = some (Worker.start 1 10 0) := rfl
  have hlength : queued.length = queueCapacity := by
    simp only [queued, List.length_append, List.length_cons, List.length_replicate,
      List.length_nil, queueCapacity]
  obtain ⟨r₁, h₁, hw₁, hd₁, hmatched⟩ := Loaded.queued queued .start hw₀ rfl ⟨rfl, rfl⟩
    (Nat.le_of_eq ((Nat.zero_add _).trans hlength))
  have hgoing : ∀ queue, { Worker.start 1 10 0 with queue := queue }.isFinished = false :=
    fun _ => rfl
  have hfull :
      (([] : List Step) ++ queued.map fun (e : Option Packet × Nat) => stepFor e.1 e.2 1).length =
        queueCapacity := by
    rw [List.nil_append, List.length_map, hlength]
  obtain ⟨h₂, hw₂⟩ := h₁.refused hw₁ (hgoing _) hfull (some lost) 8
  obtain ⟨h₃, hw₃⟩ := h₂.refused hw₂ (hgoing _) hfull none 9
  have hsome : ∀ e ∈ queued, (only 10 0 1 0).isMatched e.1 = e.1.isSome := by
    simp only [queued, List.cons_append, List.mem_cons, List.mem_append, List.mem_replicate,
      List.not_mem_nil, or_false]
    rintro e (rfl | ⟨-, rfl⟩ | rfl)
    · rfl
    · rfl
    · rfl
  rw [isMatched_dispatch, hmatched, hmatched, List.nil_append,
    List.map_congr_left fun e he => by rw [hsome e he]] at h₃
  have hlog : Loaded 1 (only 10 0 1 0) log _ := h₃
  have hd₃ := drained_dispatch (drained_dispatch hd₁ (some lost) 8) none 9
  obtain ⟨hs, hr⟩ := settled_of_called hd₃ .shutdown
  obtain ⟨-, -, hoverflows, -, -, -, -, hshutdown⟩ := no_step_lost rfl hlog
  obtain ⟨hdelivered, hsinks⟩ := hshutdown _ _ .shutdown hs hr
  refine ⟨_, hlog, ⟨_, hw₃, hfull⟩, ?_, _, _, .shutdown, hs, hr, hsinks, ?_⟩
  · rw [hoverflows]
    decide +kernel
  · rw [hdelivered.packets]
    decide +kernel

end Roster

end StreamingAcn
