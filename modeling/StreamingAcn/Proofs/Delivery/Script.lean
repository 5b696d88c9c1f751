/-
StreamingAcn.Proofs.Delivery.Script — the life of one worker, told from what is asked of it.

Whoever holds a worker sends it steps, deactivates it and drops it, in any order, and waits after
each request until the worker rests and nothing is left in the sinks. A worker that is told to stop
does not hear of it at once. It looks when it has taken its next step, so after a deactivation one
more step gets into the queue, is thrown away, and is the last: then the worker is gone, as it is
after it was dropped. Up to the first of these two requests the worker is no more than its arbiter,
with one packet, report or count for each verdict.

Definitions:

* `Request`, `Event`: what is asked of a worker, and what is answered;
* `Pipeline.AtRest`, `Script`: where requests lead to, with a rest after each of them;
* `served`: the steps that were sent before the first deactivation or drop;
* `Ended`: whether the worker is gone, told from the log;
* `Stage`: what the holder of a worker can know of it;
* `Worker.Leaving`: a worker that will be done without handling anything.

Main statement: `worker_serves_until_stopped`.
-/
import StreamingAcn.Proofs.Arbitration.Indifference
import StreamingAcn.Proofs.Delivery.Feeding

namespace StreamingAcn

open Arbitration (Arbiter Verdict)
open Delivery (Item Report Step Trouble)
open Relation (ReflTransGen)

/-! ## What is made of the verdicts -/

/-- The trouble that a verdict is reported as. -/
def Arbitration.Verdict.trouble? : Verdict → Option Trouble
  | .conflict => some .sourcesExceeded
  | .timedOut => some .timeout
  | .emitted | .unchanged | .dropped | .stale | .idle => none

namespace Arbitration.Arbiter

theorem reports_item? (a : Arbiter) (s : Step) :
    (a.item? s).toList.filterMap Item.report? =
      ((a.verdict s).trouble?.map (Report.mk a.universeId)).toList := by
  rw [item?]
  cases hv : a.verdict s with
  | emitted => cases hp : s.packet <;> simp [Item.ofVerdict?, hp, Item.report?, Verdict.trouble?]
  | unchanged => rfl
  | conflict => rfl
  | dropped => rfl
  | stale => rfl
  | timedOut => rfl
  | idle => rfl

/-- The reports among the items of a run are those of its conflicts and timeouts. -/
theorem reports_items (a : Arbiter) (steps : List Step) :
    (a.items steps).filterMap Item.report? =
      ((a.verdicts steps).filterMap Verdict.trouble?).map (Report.mk a.universeId) := by
  induction steps generalizing a with
  | nil => rfl
  | cons s rest ih =>
    rw [items_cons, List.filterMap_append, reports_item?, ih, next_universeId, verdicts]
    cases h : (a.verdict s).trouble? <;> simp [h]

/-- As many packets are passed on as there are verdicts that say so. -/
theorem length_emitted (a : Arbiter) (steps : List Step) :
    (a.emitted steps).length = (a.verdicts steps).count .emitted := by
  induction steps generalizing a with
  | nil => rfl
  | cons s rest ih =>
    rw [emitted, verdicts, List.length_append, ih, List.count_cons]
    by_cases hv : a.verdict s = .emitted
    · obtain ⟨p, hp, -⟩ := heard_of_accepted (a := a) (s := s) (by rw [hv]; rfl)
      rw [if_pos hv, (packet_of_heardOn hp).1, hv]
      simp [Nat.add_comm]
    · simp [hv]

end Arbitration.Arbiter

namespace Delivery

/-! ## Requests -/

/-- What the holder of a worker can ask of it. -/
inductive Request
  | send (step : Step)
  | deactivate
  | drop
  deriving DecidableEq

/-- A request that was made. Only the sending of a step is answered. -/
inductive Event
  | sent (step : Step) (answer : Admission)
  | deactivated
  | dropped
  deriving DecidableEq

def Event.request : Event → Request
  | .sent s _ => .send s
  | .deactivated => .deactivate
  | .dropped => .drop

def Event.isSent : Event → Bool
  | .sent _ _ => true
  | .deactivated | .dropped => false

/-- The steps that were sent before the first deactivation or drop. -/
def served : List Event → List Step
  | .sent s _ :: rest => s :: served rest
  | .deactivated :: _ | .dropped :: _ | [] => []

/-- Whether a worker is gone after these requests: it was dropped, or it was sent a step after it
was deactivated. -/
def Ended (log : List Event) : Prop :=
  .dropped ∈ log ∨ ∃ before step answer after,
    log = before ++ .sent step answer :: after ∧ .deactivated ∈ before

namespace Pipeline

/-- What a request does at once. -/
def ask (p : Pipeline) : Request → Pipeline
  | .send s => p.offer s
  | .deactivate => { p with worker := p.worker.deactivate }
  | .drop => { p with worker := p.worker.release }

/-- A request to the worker of a pipeline, with the answer to it. -/
def event (p : Pipeline) : Request → Event
  | .send s => .sent s p.worker.admission
  | .deactivate => .deactivated
  | .drop => .dropped

theorem request_event (p : Pipeline) (r : Request) : (p.event r).request = r := by
  cases r <;> rfl

/-- Whether the worker can do nothing and nothing is left in its sinks. -/
structure AtRest (p : Pipeline) : Prop where
  drained : p.outlet.Drained
  move : p.worker.move? = none
  item : p.worker.item? = none

theorem atRest_settle (p : Pipeline) : p.settle.AtRest := by
  obtain ⟨-, hdrained, hmove, hitem⟩ := p.settle_spec
  exact ⟨hdrained, hmove, hitem⟩

/-- The pipelines that some requests can lead to. After each of them the worker does what it can and
the consumer receives, in any order, until the pipeline rests. -/
inductive Script : Pipeline → List Event → Pipeline → Prop
  | nothing (p : Pipeline) : Script p [] p
  | asks {p q p' : Pipeline} {log : List Event} (r : Request)
      (hgoes : ReflTransGen (Goes attended) (p.ask r) q) (hrest : q.AtRest) (h : Script q log p') :
      Script p (p.event r :: log) p'

/-- The requests of a holder who lets the pipeline settle after each of them. -/
def play (p : Pipeline) : List Request → List Event × Pipeline
  | [] => ([], p)
  | r :: rest =>
    let played := (p.ask r).settle.play rest
    (p.event r :: played.1, played.2)

theorem script_play (p : Pipeline) (requests : List Request) :
    Script p (p.play requests).1 (p.play requests).2 ∧
      (p.play requests).1.map Event.request = requests := by
  induction requests generalizing p with
  | nil => exact ⟨.nothing p, rfl⟩
  | cons r rest ih =>
    obtain ⟨hscript, hrequests⟩ := ih (p.ask r).settle
    refine ⟨.asks r (p.ask r).settle_spec.1 (atRest_settle _) hscript, ?_⟩
    rw [play, List.map_cons, request_event, hrequests]

end Pipeline

/-! ## Stages -/

/-- What the holder of a worker can know of it. -/
inductive Stage
  | serving
  /-- It was deactivated and has not heard of it. -/
  | deactivated
  | gone
  deriving DecidableEq

def Stage.after : Stage → Event → Stage
  | .serving, .sent _ _ => .serving
  | .serving, .deactivated => .deactivated
  | .deactivated, .sent _ _ => .gone
  | .deactivated, .deactivated => .deactivated
  | .serving, .dropped | .deactivated, .dropped => .gone
  | .gone, _ => .gone

def stage (log : List Event) : Stage := log.foldl Stage.after .serving

@[simp] theorem stage_concat (log : List Event) (e : Event) :
    stage (log ++ [e]) = (stage log).after e := by
  rw [stage, List.foldl_append]
  rfl

theorem ended_concat (log : List Event) (e : Event) :
    Ended (log ++ [e]) ↔
      Ended log ∨ e = .dropped ∨ e.isSent = true ∧ Event.deactivated ∈ log := by
  constructor
  · rintro (hdropped | ⟨before, s, answer, after, hlog, hbefore⟩)
    · rcases List.mem_append.1 hdropped with h | h
      · exact .inl (.inl h)
      · exact .inr (.inl (List.mem_singleton.1 h).symm)
    · -- The step that was sent is the new request, or it was there before it.
      rcases List.eq_nil_or_concat after with rfl | ⟨after, last, rfl⟩
      · obtain ⟨rfl, hlast⟩ := List.append_inj' hlog rfl
        rw [List.cons.injEq] at hlast
        exact .inr (.inr ⟨by rw [hlast.1]; rfl, hbefore⟩)
      · have hlog' : log ++ [e] = (before ++ .sent s answer :: after) ++ [last] := by
          rw [hlog, List.concat_eq_append, List.append_assoc, List.cons_append]
        exact .inl (.inr ⟨before, s, answer, after, (List.append_inj' hlog' rfl).1, hbefore⟩)
  · rintro ((hdropped | ⟨before, s, answer, after, rfl, hbefore⟩) | rfl | ⟨hsent, hmem⟩)
    · exact .inl (List.mem_append_left _ hdropped)
    · exact .inr ⟨before, s, answer, after ++ [e], by simp, hbefore⟩
    · exact .inl (List.mem_append_right _ (List.mem_singleton_self _))
    · cases e with
      | sent s answer => exact .inr ⟨log, s, answer, [], rfl, hmem⟩
      | deactivated => cases hsent
      | dropped => cases hsent

theorem stopped_of_ended {log : List Event} (h : Ended log) : ∃ e ∈ log, e.isSent = false := by
  rcases h with hdropped | ⟨before, s, answer, after, rfl, hbefore⟩
  · exact ⟨_, hdropped, rfl⟩
  · exact ⟨_, List.mem_append_left _ hbefore, rfl⟩

theorem not_ended_of_sent {log : List Event} (h : ∀ e ∈ log, e.isSent = true) : ¬ Ended log := by
  intro hended
  obtain ⟨e, he, hstopped⟩ := stopped_of_ended hended
  rw [h e he] at hstopped
  cases hstopped

/-- What a stage says of the requests that led to it. -/
def Stage.Tells (log : List Event) : Stage → Prop
  | .serving => ∀ e ∈ log, e.isSent = true
  | .deactivated => .deactivated ∈ log ∧ ¬ Ended log
  | .gone => Ended log

/-- A stage is as much of the log as decides what the next request does. -/
theorem tells_stage (log : List Event) : (stage log).Tells log := by
  induction log using List.reverseRecOn with
  | nil => intro e he; cases he
  | append_singleton log e ih =>
    rw [stage_concat]
    generalize stage log = st at ih
    cases st with
    | serving =>
      have hsent : ∀ e ∈ log, e.isSent = true := ih
      cases e with
      | sent s answer =>
        intro e he
        rcases List.mem_append.1 he with he | he
        · exact hsent e he
        · rw [List.mem_singleton.1 he]
          rfl
      | deactivated =>
        refine ⟨by simp, ?_⟩
        simpa [ended_concat, Event.isSent] using not_ended_of_sent hsent
      | dropped => exact (ended_concat ..).2 (.inr (.inl rfl))
    | deactivated =>
      obtain ⟨hmem, hnot⟩ := ih
      cases e with
      | sent s answer => exact (ended_concat ..).2 (.inr (.inr ⟨rfl, hmem⟩))
      | deactivated =>
        refine ⟨by simp, ?_⟩
        simpa [ended_concat, Event.isSent] using hnot
      | dropped => exact (ended_concat ..).2 (.inr (.inl rfl))
    | gone => exact (ended_concat ..).2 (.inl ih)

/-- A worker is gone exactly if it was dropped or was sent a step after it was deactivated. -/
theorem stage_eq_gone_iff (log : List Event) : stage log = .gone ↔ Ended log := by
  have htells := tells_stage log
  generalize stage log = st at htells
  cases st with
  | serving => simpa using not_ended_of_sent htells
  | deactivated => simpa using htells.2
  | gone => exact ⟨fun _ => htells, fun _ => rfl⟩

theorem served_append (xs ys : List Event) (h : ∀ e ∈ xs, e.isSent = true) :
    served (xs ++ ys) = served xs ++ served ys := by
  induction xs with
  | nil => rfl
  | cons e rest ih =>
    rw [List.forall_mem_cons] at h
    cases e with
    | sent s answer => rw [List.cons_append, served, served, ih h.2, List.cons_append]
    | deactivated => cases h.1
    | dropped => cases h.1

theorem served_append_of_stopped (xs ys : List Event) (h : ∃ e ∈ xs, e.isSent = false) :
    served (xs ++ ys) = served xs := by
  induction xs with
  | nil => simp at h
  | cons e rest ih =>
    cases e with
    | sent s answer =>
      have hrest : ∃ e ∈ rest, e.isSent = false := by simpa [Event.isSent] using h
      rw [List.cons_append, served, served, ih hrest]
    | deactivated => rfl
    | dropped => rfl

/-- A worker is served with the steps that are sent while nothing else was asked of it. -/
theorem served_concat (log : List Event) (e : Event) :
    served (log ++ [e]) = served log ++ if stage log = .serving then served [e] else [] := by
  have htells := tells_stage log
  generalize stage log = st at htells
  cases st with
  | serving => rw [if_pos rfl, served_append _ _ htells]
  | deactivated =>
    rw [if_neg (by decide), List.append_nil,
      served_append_of_stopped _ _ ⟨_, htells.1, rfl⟩]
  | gone =>
    rw [if_neg (by decide), List.append_nil,
      served_append_of_stopped _ _ (stopped_of_ended htells)]

/-! ## Workers between two requests -/

namespace Worker

variable {w v : Worker} {verdict : Option Verdict}

/-- How a worker rests in each stage. -/
def Rests (w : Worker) : Stage → Prop
  | .serving => w.Serving ∧ w.phase = .waiting ∧ w.queue = []
  | .deactivated => w.isActive = false ∧ w.isHeld = true ∧ w.phase = .waiting ∧ w.queue = []
  | .gone => w.phase = .finished ∧ w.queue = []

/-- A worker that rests has nothing to handle, nothing in hand and no next move. -/
theorem Rests.idle {st : Stage} (h : w.Rests st) :
    w.pending = [] ∧ w.item? = none ∧ w.move? = none := by
  cases st with
  | serving =>
    obtain ⟨hserving, hphase, hqueue⟩ := h
    simp [pending, item?, move?, hphase, hqueue, hserving.held]
  | deactivated =>
    obtain ⟨-, hheld, hphase, hqueue⟩ := h
    simp [pending, item?, move?, hphase, hqueue, hheld]
  | gone =>
    obtain ⟨hphase, hqueue⟩ := h
    simp [pending, item?, move?, hphase, hqueue]

/-- A worker that rests has room for a step until it is gone. -/
theorem Rests.admission {st : Stage} (h : w.Rests st) :
    w.admission = if st = .gone then .gone else .queued := by
  cases st with
  | serving => simp [Worker.admission, isFinished, queueCapacity, h.2.1, h.2.2]
  | deactivated => simp [Worker.admission, isFinished, queueCapacity, h.2.2.1, h.2.2.2]
  | gone => simp [Worker.admission, isFinished, h.1]

/-- A step that is offered to a worker at rest never finds a full queue. -/
theorem Rests.offered {st : Stage} (h : w.Rests st) (o : Outlet) (s : Step) :
    o.offered w s = o := by
  rw [Outlet.offered, h.admission]
  split <;> simp

theorem Rests.isFinished_iff {st : Stage} (h : w.Rests st) :
    w.isFinished = true ↔ st = .gone := by
  cases st with
  | serving => simp [h.1.going]
  | deactivated => simp [isFinished, h.2.2.1]
  | gone => simp [isFinished, h.1]

/-- A deactivation changes nothing else at once. -/
theorem Rests.deactivate {st : Stage} (h : w.Rests st) :
    w.deactivate.Rests (st.after .deactivated) := by
  cases st with
  | serving => exact ⟨rfl, h.1.held, h.2⟩
  | deactivated => exact ⟨rfl, h.2⟩
  | gone => exact h

/-- A worker that is going to be done, and will handle no step before that: it will see that it is
not active when it has taken its next step, or it finds nothing queued and nobody who holds it. -/
def Leaving (w : Worker) : Prop :=
  match w.phase with
  | .waiting => w.queue ≠ [] ∧ w.isActive = false ∨ w.queue = [] ∧ w.isHeld = false
  | .taken _ => w.isActive = false
  | .finished => w.queue = []
  | .cleared _ | .sending _ => False

theorem Leaving.item? (h : w.Leaving) : w.item? = none := by
  cases hp : w.phase <;> simp [Leaving, Worker.item?, hp] at h ⊢

/-- A worker on its way out stays on it and gives no verdict. -/
theorem Leaving.move? (h : w.Leaving) (hm : w.move? = some (v, verdict)) :
    v.Leaving ∧ v.arbiter = w.arbiter ∧ verdict = none := by
  rcases move?_cases hm with ⟨s, rest, hp, hq, rfl, rfl⟩ | ⟨hp, hq, -, rfl, rfl⟩ |
    ⟨s, hp, hactive, -, -⟩ | ⟨s, hp, -, rfl, rfl⟩ | ⟨s, hp, -, -⟩
  · have hinactive : w.isActive = false := by simpa [Leaving, hp, hq] using h
    exact ⟨hinactive, rfl, rfl⟩
  · exact ⟨hq, rfl, rfl⟩
  · have hinactive : w.isActive = false := by simpa [Leaving, hp] using h
    exact absurd (hactive.symm.trans hinactive) (by decide)
  · exact ⟨rfl, rfl, rfl⟩
  · simp [Leaving, hp] at h

/-- A worker that rests and is dropped is on its way out. -/
theorem Rests.release {st : Stage} (h : w.Rests st) : w.release.Leaving := by
  cases st with
  | serving => simp [Leaving, Worker.release, h.2.1, h.2.2]
  | deactivated => simp [Leaving, Worker.release, h.2.2.1, h.2.2.2]
  | gone => simp [Leaving, Worker.release, h.1, h.2]

/-- A worker that was deactivated is on its way out as soon as it is sent a step. -/
theorem Rests.offer {st : Stage} (h : w.Rests st) (hst : st ≠ .serving) (s : Step) :
    (w.offer s).Leaving ∧ (w.offer s).arbiter = w.arbiter := by
  have hadm := h.admission
  cases st with
  | serving => exact absurd rfl hst
  | deactivated =>
    obtain ⟨hactive, -, hphase, hqueue⟩ := h
    simp [Worker.offer, hadm, Leaving, hactive, hphase, hqueue]
  | gone => simp [Worker.offer, hadm, Leaving, h.1, h.2]

/-- A worker on its way out does not stop before it is done. -/
theorem Leaving.rests (h : w.Leaving) (hm : w.move? = none) : w.Rests .gone := by
  rcases still_cases hm h.item? with ⟨hp, hq, hheld⟩ | hf
  · simp [Leaving, hp, hq, hheld] at h
  · have hp : w.phase = .finished := by simpa [isFinished] using hf
    exact ⟨hp, by simpa [Leaving, hp] using h⟩

end Worker

/-! ## Pipelines between two requests -/

namespace Pipeline

variable {a : Arbiter} {o : Outlet} {steps : List Step} {log : List Event} {p q : Pipeline}

/-- With nothing left in the sinks only the worker can do something. -/
theorem own_of_drained {action : Action} (hd : p.outlet.Drained) (ha : action ∈ attended)
    (h : p.act? action = some q) : action ∈ own := by
  rcases act?_attended_cases ha h with hown | ⟨-, hreceived⟩
  · exact hown
  · have hload := hreceived.load
    rw [Outlet.load, Outlet.load, hd.1, hd.2] at hload
    exact absurd hload (Nat.not_lt_zero _)

/-- Nothing happens to a pipeline at rest. -/
theorem AtRest.going (hr : p.AtRest) (hg : ReflTransGen (Goes attended) p q) : q = p := by
  rcases hg.cases_head with rfl | ⟨m, ⟨action, ha, hm⟩, -⟩
  · rfl
  · rcases outlet_act? (own_of_drained hr.drained ha hm) hm with ⟨verdict, hmove, -⟩ | ⟨i, hi, -⟩
    · rw [hr.move] at hmove
      cases hmove
    · rw [hr.item] at hi
      cases hi

/-- A worker on its way out leaves its sinks and its counters alone. -/
theorem leaving_going (hd : p.outlet.Drained) (hl : p.worker.Leaving)
    (hg : ReflTransGen (Goes attended) p q) :
    q.worker.Leaving ∧ q.worker.arbiter = p.worker.arbiter ∧ q.outlet = p.outlet := by
  induction hg with
  | refl => exact ⟨hl, rfl, rfl⟩
  | @tail m q _ hg ih =>
    obtain ⟨hleaving, harbiter, houtlet⟩ := ih
    obtain ⟨action, ha, hq⟩ := hg
    have hown : action ∈ own := own_of_drained (by rw [houtlet]; exact hd) ha hq
    rcases outlet_act? hown hq with ⟨verdict, hmove, ho⟩ | ⟨i, hi, -⟩
    · obtain ⟨hleaving', harbiter', rfl⟩ := hleaving.move? hmove
      exact ⟨hleaving', harbiter'.trans harbiter, ho.trans houtlet⟩
    · rw [hleaving.item?] at hi
      cases hi

/-- Some steps are handled or pending, what came of them is out or in hand, and the verdicts on
those that are handled are counted. -/
structure Judged (a : Arbiter) (o : Outlet) (steps : List Step) (p : Pipeline) : Prop where
  conveys : Conveys a o steps p
  counted : ∃ handled, steps = handled ++ p.worker.pending ∧
    p.outlet.counters = (a.verdicts handled).foldl Counters.tally o.counters

theorem Judged.deed (h : Judged a o steps p) (hf : q.outlet.Fits) (hd : Deed p q) :
    Judged a o steps q := by
  refine ⟨h.conveys.deed hf hd, ?_⟩
  obtain ⟨handled, hsteps, hcounters⟩ := h.counted
  cases hd with
  | nothing hpending hitem harbiter houtlet =>
    exact ⟨handled, by rw [hsteps, hpending], by rw [houtlet, hcounters]⟩
  | handles s hpending hfree hitem harbiter houtlet =>
    -- The steps handled so far are the same in both accounts, what is pending being the same.
    have hknows : p.worker.arbiter = a.after handled := by
      obtain ⟨handled', out, hsteps', -, -, hknows⟩ := h.conveys.account
      rw [hknows, List.append_cancel_right (hsteps'.symm.trans hsteps)]
    refine ⟨handled ++ [s], ?_, ?_⟩
    · rw [hsteps, hpending, List.append_assoc, List.singleton_append]
    · rw [houtlet, hknows, Arbiter.verdicts_append, List.foldl_append, ← hcounters]
      rfl
  | sends i hpending hheld hfree harbiter hpassed hcounters' =>
    exact ⟨handled, by rw [hsteps, hpending], hcounters'.trans hcounters⟩

/-- What a worker in service and its consumer do keeps the account of the steps. -/
theorem Judged.going (h : Judged a o steps p) (hs : p.worker.Serving)
    (hg : ReflTransGen (Goes attended) p q) : Judged a o steps q ∧ q.worker.Serving := by
  induction hg with
  | refl => exact ⟨h, hs⟩
  | @tail m q _ hg ih =>
    obtain ⟨hjudged, hserving⟩ := ih
    have hfits := hjudged.conveys.fits
    refine ⟨?_, (serving_going hserving hfits (.single hg)).1⟩
    obtain ⟨action, ha, hq⟩ := hg
    rcases act?_attended_cases ha hq with hown | ⟨hw, hreceived⟩
    · exact hjudged.deed (fits_act? hfits hown hq)
        (deed_of_act? (Worker.keeps_of_active hserving.active) hfits hown hq)
    · obtain ⟨handled, hsteps, hcounters⟩ := hjudged.counted
      exact ⟨hjudged.conveys.carry (hreceived.fits hfits) hw hreceived.packets hreceived.reports,
        handled, by rw [hsteps, hw], hreceived.counters.trans hcounters⟩

/-- What holds of a pipeline at rest after some requests. -/
structure Lives (a : Arbiter) (o : Outlet) (log : List Event) (p : Pipeline) : Prop where
  drained : p.outlet.Drained
  rests : p.worker.Rests (stage log)
  judged : Judged a o (served log) p

/-- A step that is sent to a worker in service is handled before the worker rests again. -/
theorem Lives.serves (h : Lives a o log p) (hst : stage log = .serving) (s : Step)
    (hg : ReflTransGen (Goes attended) (p.offer s) q) (hr : q.AtRest) :
    Lives a o (log ++ [.sent s p.worker.admission]) q := by
  have hoffer : p.offer s = ⟨{ p.worker with queue := p.worker.queue ++ [s] }, p.outlet⟩ := by
    rw [offer, h.rests.offered, Worker.offer, h.rests.admission, hst]
    rfl
  have hrests := h.rests
  rw [hst] at hrests
  -- Once the step is queued it is pending, and a worker in service rests with nothing pending.
  have hserving : (p.offer s).worker.Serving := Worker.serving_offer hrests.1 s
  have hpending : (p.offer s).worker.pending = p.worker.pending ++ [s] := by
    rw [hoffer]
    exact p.worker.pending_queued s
  have hjudged : Judged a o (served log ++ [s]) (p.offer s) := by
    obtain ⟨handled, hsteps, hcounters⟩ := h.judged.counted
    refine ⟨h.judged.conveys.queued ?_ ?_ ?_, handled, ?_, ?_⟩
    · rw [hoffer]
    · rw [hoffer]
    · rw [hoffer]
    · rw [hpending, hsteps, List.append_assoc]
    · rw [hoffer]
      exact hcounters
  obtain ⟨hjudged', hserving'⟩ := hjudged.going hserving hg
  refine ⟨hr.drained, ?_, ?_⟩
  · rw [stage_concat, hst]
    exact ⟨hserving', Worker.rested hserving' hr.move hr.item⟩
  · rw [served_concat, if_pos hst]
    exact hjudged'

/-- A request that no step is handled for changes the flags of the worker or sees it off. -/
theorem Lives.quiet (h : Lives a o log p) {e : Event}
    (hserved : stage log ≠ .serving ∨ served [e] = [])
    (hrests : q.worker.Rests (stage (log ++ [e])))
    (harbiter : q.worker.arbiter = p.worker.arbiter) (houtlet : q.outlet = p.outlet) :
    Lives a o (log ++ [e]) q := by
  have hsame : served (log ++ [e]) = served log := by
    rw [served_concat]
    rcases hserved with hst | hnone
    · rw [if_neg hst, List.append_nil]
    · rw [hnone, ite_self, List.append_nil]
  obtain ⟨hpending, hitem, -⟩ := h.rests.idle
  obtain ⟨hpending', hitem', -⟩ := hrests.idle
  refine ⟨houtlet ▸ h.drained, hrests, ?_⟩
  rw [hsame]
  exact h.judged.deed (houtlet ▸ h.judged.conveys.fits)
    (.nothing (hpending'.trans hpending.symm) (hitem'.trans hitem.symm) harbiter houtlet)

/-- A request that puts the worker on its way out leads to a worker that is gone. -/
theorem Lives.leaves (h : Lives a o log p) {e : Event} {m : Pipeline}
    (hserved : stage log ≠ .serving ∨ served [e] = []) (hst : stage (log ++ [e]) = .gone)
    (hleaving : m.worker.Leaving) (harbiter : m.worker.arbiter = p.worker.arbiter)
    (houtlet : m.outlet = p.outlet) (hg : ReflTransGen (Goes attended) m q) (hr : q.AtRest) :
    Lives a o (log ++ [e]) q := by
  obtain ⟨hleft, harbiter', houtlet'⟩ := leaving_going (houtlet ▸ h.drained) hleaving hg
  refine h.quiet hserved ?_ (harbiter'.trans harbiter) (houtlet'.trans houtlet)
  rw [hst]
  exact hleft.rests hr.move

/-- What a request leads to once the pipeline rests again. -/
theorem Lives.asks (h : Lives a o log p) (r : Request)
    (hg : ReflTransGen (Goes attended) (p.ask r) q) (hr : q.AtRest) :
    Lives a o (log ++ [p.event r]) q := by
  cases r with
  | send s =>
    by_cases hst : stage log = .serving
    · exact h.serves hst s hg hr
    · obtain ⟨hleaving, harbiter⟩ := h.rests.offer hst s
      refine h.leaves (.inl hst) ?_ hleaving harbiter (h.rests.offered _ s) hg hr
      rw [stage_concat]
      cases hstage : stage log with
      | serving => exact absurd hstage hst
      | deactivated => rfl
      | gone => rfl
  | deactivate =>
    have hrests := h.rests.deactivate
    -- A worker that waits does not look whether it is active, so nothing happens.
    have hrest : (p.ask .deactivate).AtRest := ⟨h.drained, hrests.idle.2.2, hrests.idle.2.1⟩
    rw [hrest.going hg]
    refine h.quiet (.inr rfl) ?_ rfl rfl
    rw [stage_concat]
    exact hrests
  | drop =>
    refine h.leaves (m := p.ask .drop) (.inr rfl) ?_ h.rests.release rfl rfl hg hr
    rw [stage_concat]
    cases stage log <;> rfl

/-- What holds between any two requests of a script. -/
theorem lives_script {past : List Event} (h : Lives a o past p) (hs : Script p log q) :
    Lives a o (past ++ log) q := by
  induction hs generalizing past with
  | nothing p => rwa [List.append_nil]
  | @asks p q p' log r hgoes hrest _ ih =>
    have hlives := ih (h.asks r hgoes hrest)
    rwa [List.append_assoc, List.singleton_append] at hlives

/-- A step gets into the queue until the worker is gone. -/
theorem answer_script {past before after : List Event} {s : Step} {answer : Admission}
    (h : Lives a o past p) (hs : Script p log q) (hlog : log = before ++ .sent s answer :: after) :
    answer = .queued ∧ ¬ Ended (past ++ before) ∨ answer = .gone ∧ Ended (past ++ before) := by
  induction hs generalizing past before with
  | nothing p => simp at hlog
  | @asks p q p' log r hgoes hrest _ ih =>
    cases before with
    | nil =>
      rw [List.nil_append, List.cons.injEq] at hlog
      have hanswer : answer = p.worker.admission := by
        cases r with
        | send s' =>
          obtain ⟨-, hadm⟩ := Event.sent.inj hlog.1
          exact hadm.symm
        | deactivate => cases hlog.1
        | drop => cases hlog.1
      rw [List.append_nil, ← stage_eq_gone_iff, hanswer, h.rests.admission]
      by_cases hst : stage past = .gone <;> simp [hst]
    | cons e before =>
      rw [List.cons_append, List.cons.injEq] at hlog
      have hlater := ih (h.asks r hgoes hrest) hlog.2
      rwa [hlog.1, List.append_assoc, List.singleton_append] at hlater

theorem lives_fresh (u : UniverseId) (timeout now capacity : Nat) :
    Lives (Arbiter.start u timeout now) (Outlet.start capacity) []
      (fresh u timeout now capacity) where
  drained := ⟨rfl, rfl⟩
  rests := ⟨⟨rfl, rfl, rfl⟩, rfl, rfl⟩
  judged := ⟨(runs_fresh u timeout now capacity).conveys, [], rfl, rfl⟩

end Pipeline

open Pipeline (Script fresh)

/-- A worker can be asked anything at any time. What it puts out and counts, with a rest after
every request, is what one arbiter makes of the steps that were sent before the first deactivation
or drop: a packet for each verdict that passes one on, a report for each conflict and each timeout,
and one count for each verdict but that of an idle step. Nothing comes of later requests. A step is
refused only by a worker that is gone, and the worker is gone, its sinks let go, once it was dropped
or was sent a step after it was deactivated. -/
theorem worker_serves_until_stopped (u : UniverseId) (timeout start capacity : Nat) :
    let arbiter := Arbiter.start u timeout start
    (∀ requests : List Request, ∃ log p,
      log.map Event.request = requests ∧ Script (fresh u timeout start capacity) log p) ∧
    ∀ log p, Script (fresh u timeout start capacity) log p →
      p.outlet.packets.received = arbiter.emitted (served log) ∧
      p.outlet.packets.received.length = (arbiter.verdicts (served log)).count .emitted ∧
      p.outlet.reports.received =
        ((arbiter.verdicts (served log)).filterMap Verdict.trouble?).map (Report.mk u) ∧
      p.outlet.counters = Counters.ofVerdicts (arbiter.verdicts (served log)) ∧
      (∀ before s answer after, log = before ++ .sent s answer :: after →
        answer = .queued ∧ ¬ Ended before ∨ answer = .gone ∧ Ended before) ∧
      (p.worker.isFinished = true ↔ Ended log) := by
  intro arbiter
  refine ⟨fun requests => ?_, fun log p hs => ?_⟩
  · obtain ⟨hscript, hrequests⟩ := (fresh u timeout start capacity).script_play requests
    exact ⟨_, _, hrequests, hscript⟩
  · have hfresh := Pipeline.lives_fresh u timeout start capacity
    have hlives := Pipeline.lives_script hfresh hs
    rw [List.nil_append] at hlives
    obtain ⟨hpending, hitem, -⟩ := hlives.rests.idle
    have hpassed := hlives.judged.conveys.passed hpending hitem
    have hpackets : p.outlet.packets.received = arbiter.emitted (served log) := by
      have hflow := hpassed.packets
      rw [Sink.flow, hlives.drained.1, List.append_nil, Arbiter.packets_items] at hflow
      exact hflow
    have hreports := hpassed.reports
    rw [Sink.flow, hlives.drained.2, List.append_nil, Arbiter.reports_items] at hreports
    obtain ⟨handled, hsteps, hcounters⟩ := hlives.judged.counted
    rw [hpending, List.append_nil] at hsteps
    rw [← hsteps] at hcounters
    refine ⟨hpackets, ?_, hreports, ?_, ?_, ?_⟩
    · rw [hpackets, Arbiter.length_emitted]
    · rw [hcounters]
      exact Counters.foldl_tally _
    · intro before s answer after hlog
      exact Pipeline.answer_script hfresh hs hlog
    · rw [hlives.rests.isFinished_iff, stage_eq_gone_iff]

/-- Through sinks that hold nothing: a packet and a timeout go out, then the worker is deactivated,
takes one more step, throws it away and refuses the next one. -/
theorem worker_serves_until_stopped_by_one_more :
    let first : Packet := { universeId := 4, sequenceNumber := 1, slots := [1, 2] }
    let second : Packet := { first with sequenceNumber := 2, slots := [5], slots_le := by decide }
    let next : Step := ⟨some second, 5001⟩
    let log : List Event := [.sent ⟨some first, 0⟩ .queued, .sent ⟨none, 5000⟩ .queued,
      .deactivated, .sent next .queued, .sent next .gone]
    ∃ p, Script (fresh 4 2500 0 0) log p ∧ p.outlet.packets.received = [first] ∧
      p.outlet.reports.received = [⟨4, .timeout⟩] ∧
      p.outlet.counters = { dataEmitted := 1, timeouts := 1 } ∧ p.worker.isFinished = true := by
  intro first second next log
  have hscript := ((fresh 4 2500 0 0).script_play (log.map Event.request)).1
  have hlog : ((fresh 4 2500 0 0).play (log.map Event.request)).1 = log := by decide +kernel
  rw [hlog] at hscript
  obtain ⟨-, hall⟩ := worker_serves_until_stopped 4 2500 0 0
  obtain ⟨hpackets, -, hreports, hcounters, -, hfinished⟩ := hall _ _ hscript
  refine ⟨_, hscript, ?_, ?_, ?_, ?_⟩
  · rw [hpackets]
    decide +kernel
  · rw [hreports]
    decide +kernel
  · rw [hcounters]
    decide +kernel
  · exact hfinished.2 (.inr ⟨log.take 3, next, .queued, [.sent next .gone], rfl, by decide⟩)

end Delivery

end StreamingAcn
