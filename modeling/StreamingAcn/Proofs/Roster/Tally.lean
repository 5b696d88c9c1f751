/-
StreamingAcn.Proofs.Roster.Tally — what the verdicts of the workers add up to.

Every verdict is counted when it is given, and what comes of it goes out later. So at any time the
verdicts given are as many as the items that have gone out and those that are in hand, kind by
kind, and the verdicts on packets and the packets still to be judged are together the packets that
were dispatched to a universe that merges them. At rest nothing is in hand and nothing to be judged.

Definitions:

* `Verdict.hears`: a verdict on a packet, not on silence;
* `ahead`: the packets that the workers have still to judge;
* `Balanced`: some verdicts account for the counters of a roster and for what has gone out.

Main statements: `balanced_stir`, `balanced_dispatch`.
-/
import StreamingAcn.Proofs.Roster.Counting
import StreamingAcn.Proofs.Roster.Crew
import StreamingAcn.Proofs.Roster.Isolation

namespace StreamingAcn

open Arbitration (Arbiter Verdict)
open Delivery (Item Outlet Pipeline Report Step Trouble Worker)

/-! ## Verdicts and items -/

/-- Whether a verdict is on a packet that the universe merges. -/
def Arbitration.Verdict.hears : Verdict → Bool
  | .emitted | .unchanged | .conflict | .dropped | .stale => true
  | .timedOut | .idle => false

/-- The verdict that is reported as a trouble. -/
def Delivery.Trouble.verdict : Trouble → Verdict
  | .timeout => .timedOut
  | .sourcesExceeded => .conflict

namespace Arbitration.Arbiter

theorem hears_judge (a : Arbiter) (p : Packet) (now : Nat) : (a.judge p now).1.hears = true := by
  rcases a.judge_cases p now with ⟨-, hj⟩ | ⟨-, -, hj⟩ | ⟨-, -, hj⟩ | ⟨-, -, hj⟩
  · rw [hj]; rfl
  · rw [hj]; rfl
  · rw [hj]; rfl
  · rw [hj]
    dsimp only
    split <;> rfl

/-- A verdict is on a packet exactly if the step has one that the universe merges. -/
theorem hears_verdict (a : Arbiter) (s : Step) :
    (a.verdict s).hears = (s.heardOn a.universeId).isSome := by
  cases h : s.heardOn a.universeId with
  | some p => rw [verdict_of_heard h, hears_judge, Option.isSome_some]
  | none =>
    rw [verdict_of_silent h]
    rcases a.silence_cases s.time with hs | hs <;> rw [hs] <;> rfl

/-- As many packets go out as there are verdicts that pass one on. -/
theorem packets_of_item? (a : Arbiter) (s : Step) :
    ((a.item? s).toList.filterMap Item.packet?).length = [a.verdict s].count .emitted := by
  rw [packets_item?]
  by_cases hv : a.verdict s = .emitted
  · have hheard := a.hears_verdict s
    rw [hv] at hheard
    obtain ⟨p, hp⟩ := Option.isSome_iff_exists.1 hheard.symm
    rw [if_pos hv, hv, (packet_of_heardOn hp).1]
    rfl
  · rw [if_neg hv, List.count_singleton, if_neg (by simpa using hv)]
    rfl

/-- A trouble is reported exactly for its verdict. -/
theorem reports_of_item? (a : Arbiter) (s : Step) (t : Trouble) :
    ((a.item? s).toList.filterMap Item.report?).countP (fun e => e.trouble = t) =
      [a.verdict s].count t.verdict := by
  rw [item?]
  cases hv : a.verdict s with
  | emitted =>
    cases hs : s.packet <;> cases t <;> simp [Item.ofVerdict?, hs, Item.report?, Trouble.verdict]
  | unchanged => cases t <;> rfl
  | conflict => cases t <;> rfl
  | dropped => cases t <;> rfl
  | stale => cases t <;> rfl
  | timedOut => cases t <;> rfl
  | idle => cases t <;> rfl

end Arbitration.Arbiter

/-! ## Packets that are not judged yet -/

/-- The packets that a worker has still to judge. -/
def Delivery.Worker.ahead (w : Worker) : Nat :=
  w.pending.countP fun s => (s.heardOn w.universeId).isSome

namespace Roster

/-- The packets that all workers have still to judge. -/
def ahead (r : Roster) : Nat := (r.crew.map Worker.ahead).sum

/-- Some verdicts account for what the workers of a roster count and for what has gone out; with
what is still ahead they account for a number of packets. -/
structure Balanced (vs : List Verdict) (n : Nat) (r : Roster) : Prop where
  counters : r.counters = (Counters.ofVerdicts vs).withReads r.counters
  packets : (r.outlet.packets.flow ++ r.inHand.filterMap Item.packet?).length = vs.count .emitted
  reports : ∀ t : Trouble, (r.outlet.reports.flow ++ r.inHand.filterMap Item.report?).countP
    (fun e => e.trouble = t) = vs.count t.verdict
  heard : vs.countP Verdict.hears + r.ahead = n

variable {r r' : Roster} {vs : List Verdict} {n : Nat} {front back : List Worker} {w v : Worker}

theorem ahead_around (h : r.crew = front ++ w :: back) : r.ahead =
    (front.map Worker.ahead).sum + (Worker.ahead w + (back.map Worker.ahead).sum) := by
  rw [ahead, h, List.map_append, List.map_cons, List.sum_append, List.sum_cons]

theorem inHand_around (h : r.crew = front ++ w :: back) : r.inHand =
    front.flatMap (fun w => w.item?.toList) ++
      (w.item?.toList ++ back.flatMap fun w => w.item?.toList) := by
  rw [inHand, h, List.flatMap_append, List.flatMap_cons]

theorem counters_tally {c : Counters} (h : c = (Counters.ofVerdicts vs).withReads c) (v : Verdict) :
    c.tally v = (Counters.ofVerdicts (vs ++ [v])).withReads (c.tally v) := by
  have hreads : ∀ d : Counters, d.withReads (c.tally v) = d.withReads c := by
    intro d
    cases v <;> rfl
  rw [hreads, ← Counters.tally_ofVerdicts]
  calc c.tally v
      = ((Counters.ofVerdicts vs).withReads c).tally v := congrArg (·.tally v) h
    _ = ((Counters.ofVerdicts vs).tally v).withReads c :=
      ((Counters.apart_withReads c).tally _ v).symm

/-- Where nothing was counted, went out or came to hand, the same verdicts account for what was
there before and for what is ahead in addition. -/
theorem Balanced.carry (h : Balanced vs n r) (k : Nat) (hc : r'.counters = r.counters)
    (hp : r'.outlet.packets.flow = r.outlet.packets.flow)
    (hr : r'.outlet.reports.flow = r.outlet.reports.flow) (hh : r'.inHand = r.inHand)
    (ha : r'.ahead = r.ahead + k) : Balanced vs (n + k) r' where
  counters := by
    rw [hc]
    exact h.counters
  packets := by
    rw [hp, hh]
    exact h.packets
  reports := by
    rw [hr, hh]
    exact h.reports
  heard := by rw [ha, ← Nat.add_assoc, h.heard]

/-- A deed of one of the workers keeps the balance. -/
theorem Balanced.deed (h : Balanced vs n r) (hcrew : r.crew = front ++ w :: back)
    (hcrew' : r'.crew = front ++ v :: back)
    (hd : Pipeline.Deed ⟨w, r.outlet⟩ ⟨v, r'.outlet⟩) : ∃ vs', Balanced vs' n r' := by
  obtain ⟨hcounters, hpackets, hreports, hheard⟩ := id h
  rw [ahead_around hcrew] at hheard
  rw [inHand_around hcrew] at hpackets hreports
  simp only [List.filterMap_append, List.length_append, List.countP_append] at hpackets hreports
  cases hd with
  | nothing hpending hitem harbiter houtlet =>
    simp only at hpending hitem harbiter houtlet
    have hahead : v.ahead = w.ahead := by
      rw [Worker.ahead, Worker.universeId, hpending, harbiter]
      rfl
    refine ⟨vs, h.carry 0 (congrArg (·.counters) houtlet) (congrArg (·.packets.flow) houtlet)
      (congrArg (·.reports.flow) houtlet) ?_ ?_⟩
    · rw [inHand_around hcrew', inHand_around hcrew, hitem]
    · rw [ahead_around hcrew', ahead_around hcrew, hahead, Nat.add_zero]
  | handles s hpending hfree hitem harbiter houtlet =>
    -- The hand was empty, so the item that the verdict comes to is all that is new in it.
    simp only at hpending hfree hitem harbiter houtlet
    have hu : v.universeId = w.universeId := by
      rw [Worker.universeId, harbiter, Arbiter.next_universeId, Worker.universeId]
    have hjudged : w.ahead = v.ahead + [w.arbiter.verdict s].countP Verdict.hears := by
      rw [Worker.ahead, hpending, List.countP_cons, Worker.ahead, hu, List.countP_singleton,
        Arbiter.hears_verdict]
      rfl
    rw [hfree] at hpackets hreports
    refine ⟨vs ++ [w.arbiter.verdict s], ?_, ?_, ?_, ?_⟩
    · rw [Roster.counters, houtlet]
      exact counters_tally hcounters _
    · have hitems := w.arbiter.packets_of_item? s
      rw [inHand_around hcrew', houtlet, hitem, List.count_append]
      simp only [Pipeline.counted, List.filterMap_append, List.length_append] at hpackets hitems ⊢
      simp only [Option.toList_none, List.filterMap_nil, List.length_nil] at hpackets
      omega
    · intro t
      have hitems := w.arbiter.reports_of_item? s t
      have hreports := hreports t
      rw [inHand_around hcrew', houtlet, hitem, List.count_append]
      simp only [Pipeline.counted, List.filterMap_append, List.countP_append] at hreports hitems ⊢
      simp only [Option.toList_none, List.filterMap_nil, List.countP_nil] at hreports
      omega
    · rw [ahead_around hcrew', List.countP_append]
      omega
  | sends i hpending hheld hfree harbiter hpassed hcounters' =>
    -- The item is counted in the flow of its sink instead of the hand.
    simp only at hpending hheld hfree harbiter hpassed hcounters'
    rw [hheld] at hpackets hreports
    refine ⟨vs, ?_, ?_, ?_, ?_⟩
    · rw [Roster.counters, hcounters']
      exact hcounters
    · rw [inHand_around hcrew', hpassed.packets, hfree]
      simp only [Option.toList_none, Option.toList_some, List.nil_append, List.filterMap_append,
        List.length_append] at hpackets ⊢
      omega
    · intro t
      have hreports := hreports t
      rw [inHand_around hcrew', hpassed.reports, hfree]
      simp only [Option.toList_none, Option.toList_some, List.nil_append, List.filterMap_append,
        List.countP_append] at hreports ⊢
      omega
    · rw [ahead_around hcrew', Worker.ahead, Worker.universeId, hpending, harbiter]
      exact hheard

variable {timeout : Nat} {book : UniverseId → Chronicle}

/-- Every worker of a faithful roster serves its universe or puts out nothing any more. -/
theorem serving_or_spent (h : Faithful timeout book r) : ∀ w ∈ r.crew, w.Serving ∨ Spent w := by
  intro w hw
  rcases mem_crew_iff.1 hw with ⟨u, hw⟩ | hw
  · obtain ⟨span, -, hserves⟩ := present_of_find? h hw
    exact .inl hserves.serving
  · exact .inr (h.leaving w hw)

theorem keeps_of_spent (h : Spent w) : w.Keeps := by
  intro s hs
  rcases h.phase with hp | hp <;> rw [hs] at hp <;> cases hp

/-- What happens by itself keeps the balance. -/
theorem balanced_stir (h : Faithful timeout book r) (hb : Balanced vs n r) (hs : Stir r r') :
    ∃ vs', Balanced vs' n r' := by
  cases change_of_stir hs with
  | @acts front back w v a hcrew hcrew' ha hq =>
    have hkeeps : w.Keeps := by
      rcases serving_or_spent h w (by simp [hcrew]) with hserving | hspent
      · exact Worker.keeps_of_active hserving.active
      · exact keeps_of_spent hspent
    exact hb.deed hcrew hcrew' (Pipeline.deed_of_act? hkeeps h.fits ha hq)
  | @leaves front back w hcrew hcrew' hf houtlet =>
    have hqueue : w.queue = [] := by
      rcases serving_or_spent h w (by simp [hcrew]) with hserving | hspent
      · rw [hserving.going] at hf
        cases hf
      · exact hspent.queue
    obtain ⟨hpending, hitem⟩ := Worker.idle_of_finished hf hqueue
    have hahead : r'.ahead = r.ahead := by
      simp [ahead, hcrew, hcrew', Worker.ahead, hpending]
    have hhand : r'.inHand = r.inHand := by
      simp [inHand, hcrew, hcrew', hitem]
    exact ⟨vs, hb.carry 0 (congrArg (·.counters) houtlet)
      (congrArg (·.packets.flow) houtlet) (congrArg (·.reports.flow) houtlet) hhand hahead⟩
  | receives hcrew hreceived =>
    have hahead : r'.ahead = r.ahead := by rw [ahead, ahead, hcrew]
    have hhand : r'.inHand = r.inHand := by rw [inHand, inHand, hcrew]
    exact ⟨vs, hb.carry 0 hreceived.counters hreceived.packets hreceived.reports hhand
      hahead⟩

/-! ## Rosters whose workers have nothing to do -/

/-- Whether no worker has a step to handle or an item to get rid of. -/
def Quiet (r : Roster) : Prop := ∀ w ∈ r.crew, w.pending = [] ∧ w.item? = none

theorem Quiet.ahead (h : r.Quiet) : r.ahead = 0 := by
  rw [Roster.ahead, List.sum_eq_zero_iff_forall_eq_nat]
  intro k hk
  obtain ⟨w, hw, rfl⟩ := List.mem_map.1 hk
  rw [Worker.ahead, (h w hw).1, List.countP_nil]

theorem Quiet.inHand (h : r.Quiet) : r.inHand = [] := by
  rw [Roster.inHand, List.flatMap_eq_nil_iff]
  intro w hw
  rw [(h w hw).2, Option.toList_none]

/-- A roster on which nothing was ever active is balanced without a verdict. -/
theorem balanced_start (timeout capacity : Nat) : Balanced [] 0 (Roster.start timeout capacity) :=
  ⟨rfl, rfl, fun _ => rfl, rfl⟩

theorem quiet_of_atRest (h : Faithful timeout book r) (hr : r.AtRest) : r.Quiet := by
  obtain ⟨-, hactive, hleaving⟩ := atRest_iff.1 hr
  intro w hw
  rcases mem_crew_iff.1 hw with ⟨u, hw⟩ | hw
  · obtain ⟨hphase, hqueue⟩ := rested_of_atRest h hr hw
    exact ⟨by simp [Worker.pending, hphase, hqueue], (hactive u w hw).2⟩
  · obtain ⟨⟨-, hitem⟩, -⟩ := hleaving w hw
    have hspent := h.leaving w hw
    refine ⟨?_, hitem⟩
    rcases hspent.phase with hp | hp <;> simp [Worker.pending, hp, hspent.queue]

/-- A call that gives the workers nothing to do keeps the balance. -/
theorem Balanced.quiet (h : Balanced vs n r) (hq : r.Quiet) (hq' : r'.Quiet)
    (ho : r'.outlet = r.outlet) : Balanced vs n r' :=
  h.carry 0 (congrArg (·.counters) ho) (congrArg (·.packets.flow) ho)
    (congrArg (·.reports.flow) ho) (hq'.inHand.trans hq.inHand.symm)
    (hq'.ahead.trans hq.ahead.symm)

/-- What the loop counts is not part of the balance. -/
theorem Balanced.count {f : Counters → Counters} (h : Balanced vs n r)
    (hf : ∀ c, f c = c.withReads (f c)) : Balanced vs n (r.count f) := by
  refine ⟨?_, h.packets, h.reports, h.heard⟩
  calc f r.counters
      = r.counters.withReads (f r.counters) := hf _
    _ = ((Counters.ofVerdicts vs).withReads r.counters).withReads (f r.counters) :=
      congrArg (·.withReads (f r.counters)) h.counters
    _ = (Counters.ofVerdicts vs).withReads (f r.counters) := rfl

theorem faithful_count (h : Faithful timeout book r) (f : Counters → Counters) :
    Faithful timeout book (r.count f) :=
  ⟨h.timeout_eq, h.fits, h.leaving, h.workers,
    fun u => ⟨(h.accounts u).packets, (h.accounts u).reports⟩, h.valid⟩

theorem atRest_count (h : r.AtRest) (f : Counters → Counters) : (r.count f).AtRest := by
  rw [atRest_iff] at h ⊢
  exact h

theorem quiet_activate (h : r.Quiet) (u : UniverseId) (now : Nat)
    (join : Except ReceiverError Unit) : (r.activate u now join).Quiet := by
  unfold activate
  split
  · intro w hw
    rcases mem_crew_iff.1 hw with ⟨k, hk⟩ | hw
    · rw [Directory.find?_insert] at hk
      split at hk
      · rw [← Option.some.inj hk]
        exact ⟨rfl, rfl⟩
      · exact h w (mem_crew_iff.2 (.inl ⟨k, hk⟩))
    · exact h w (mem_crew_iff.2 (.inr hw))
  · exact h

theorem quiet_deactivate (h : r.Quiet) (u : UniverseId) : (r.deactivate u).Quiet := by
  unfold deactivate
  split
  · exact h
  · next w hw =>
    intro v hv
    rcases mem_crew_iff.1 hv with ⟨k, hk⟩ | hv
    · rw [Directory.find?_erase] at hk
      split at hk
      · cases hk
      · exact h v (mem_crew_iff.2 (.inl ⟨k, hk⟩))
    · rcases List.mem_append.1 hv with hv | hv
      · exact h v (mem_crew_iff.2 (.inr hv))
      · rw [List.mem_singleton.1 hv]
        exact h w (mem_crew_iff.2 (.inl ⟨u, hw⟩))

theorem quiet_shutdown (h : r.Quiet) : r.shutdown.Quiet := by
  unfold shutdown
  split
  · exact h
  · intro v hv
    rcases mem_crew_iff.1 hv with ⟨k, hk⟩ | hv
    · cases hk
    · rcases List.mem_append.1 hv with hv | hv
      · exact h v (mem_crew_iff.2 (.inr hv))
      · obtain ⟨w, hw, rfl⟩ := List.mem_map.1 hv
        exact h w (List.mem_append_left _ hw)

/-! ## Dispatches at rest -/

/-- Whether a packet is for an active universe that merges it. -/
def isHeard (r : Roster) (p : Packet) : Bool := p.startCode = 0 && r.isActive p.universeId

/-- Nothing is refused by workers at rest. -/
theorem outlet_dispatch_of_atRest (h : Faithful timeout book r) (hr : r.AtRest)
    (packet : Option Packet) (now : Nat) : (r.dispatch packet now).outlet = r.outlet := by
  have hfold :
      r.workers.entries.foldl (fun o e => o.offered e.2 (stepFor packet now e.1)) r.outlet =
        r.workers.entries.foldl (fun o _ => o) r.outlet := by
    refine List.foldl_ext _ _ _ ?_
    intro o e he
    obtain ⟨hphase, hqueue⟩ := rested_of_atRest h hr ((Directory.mem_entries_iff _ _ _).1 he)
    have hadm := (Worker.due_offer_of_rested hphase hqueue (stepFor packet now e.1)).1
    rw [Outlet.offered, hadm, if_neg (by simp)]
  rw [dispatch, hfold, List.foldl_fixed]

theorem heardOn_stepFor (packet : Option Packet) (now : Nat) (u : UniverseId) :
    ((stepFor packet now u).heardOn u).isSome =
      packet.any fun p => p.startCode = 0 && p.universeId = u := by
  cases packet with
  | none => rfl
  | some p =>
    by_cases hu : p.universeId = u <;> by_cases hs : p.startCode = 0 <;>
      simp [stepFor, Step.heardOn, Option.filter, hu, hs]

/-- A worker at rest that is offered a step has that step to judge. -/
theorem ahead_offer_of_rested (hp : w.phase = .waiting) (hq : w.queue = []) (s : Step) :
    (w.offer s).ahead = if (s.heardOn w.universeId).isSome then 1 else 0 := by
  have hadm := (Worker.due_offer_of_rested hp hq s).1
  have hpending : (w.offer s).pending = [s] := by
    simp [Worker.offer, hadm, Worker.pending, hp, hq]
  have hu : (w.offer s).universeId = w.universeId := by
    simp only [Worker.offer]
    split <;> rfl
  rw [Worker.ahead, hpending, hu, List.countP_singleton]

theorem item?_offer (w : Worker) (s : Step) : (w.offer s).item? = w.item? := by
  unfold Worker.offer
  split <;> rfl

theorem universeId_of_find? (h : Faithful timeout book r) {u : UniverseId}
    (hw : r.workers.find? u = some w) : w.universeId = u := by
  obtain ⟨span, -, hserves⟩ := present_of_find? h hw
  have hu := congrArg Arbiter.universeId hserves.eventual
  rw [Worker.eventual, Arbiter.after_universeId, Period.arbiter, Arbiter.after_universeId] at hu
  exact hu

theorem crew_dispatch (r : Roster) (packet : Option Packet) (now : Nat) :
    (r.dispatch packet now).crew =
      r.workers.entries.map (fun e => e.2.offer (stepFor packet now e.1)) ++ r.leaving := by
  rw [crew, Directory.values, dispatch, Directory.map, List.map_map]
  rfl

theorem inHand_dispatch (h : r.Quiet) (packet : Option Packet) (now : Nat) :
    (r.dispatch packet now).inHand = [] := by
  rw [inHand, crew_dispatch, List.flatMap_eq_nil_iff]
  intro v hv
  rcases List.mem_append.1 hv with hv | hv
  · obtain ⟨e, he, rfl⟩ := List.mem_map.1 hv
    have hw : e.2 ∈ r.crew := List.mem_append_left _ (List.mem_map_of_mem he)
    rw [item?_offer, (h e.2 hw).2, Option.toList_none]
  · rw [(h v (List.mem_append_right _ hv)).2, Option.toList_none]

/-- A universe is found once among the active ones, or not at all. -/
theorem sum_indicator {l : List UniverseId} (hn : l.Nodup) (u : UniverseId) :
    (l.map fun k => if u = k then 1 else 0).sum = if u ∈ l then 1 else 0 := by
  induction l with
  | nil => rfl
  | cons k rest ih =>
    obtain ⟨hk, hn⟩ := List.nodup_cons.1 hn
    rw [List.map_cons, List.sum_cons, ih hn]
    by_cases h : u = k
    · subst h
      simp [hk]
    · simp [h]

/-- A dispatched packet is ahead of the worker of its universe, if that is active and merges it. -/
theorem ahead_dispatch (h : Faithful timeout book r) (hr : r.AtRest) (packet : Option Packet)
    (now : Nat) : (r.dispatch packet now).ahead = if packet.any r.isHeard then 1 else 0 := by
  have hquiet := quiet_of_atRest h hr
  have hleaving : (r.leaving.map Worker.ahead).sum = 0 := by
    rw [List.sum_eq_zero_iff_forall_eq_nat]
    intro k hk
    obtain ⟨w, hw, rfl⟩ := List.mem_map.1 hk
    rw [Worker.ahead, (hquiet w (mem_crew_iff.2 (.inr hw))).1, List.countP_nil]
  have hactive : r.workers.entries.map (fun e => (e.2.offer (stepFor packet now e.1)).ahead) =
      r.active.map fun u =>
        if packet.any fun p => p.startCode = 0 && p.universeId = u then 1 else 0 := by
    rw [active, Directory.keys, List.map_map, List.map_inj_left]
    intro e he
    have hw := (Directory.mem_entries_iff _ _ _).1 he
    obtain ⟨hphase, hqueue⟩ := rested_of_atRest h hr hw
    rw [ahead_offer_of_rested hphase hqueue, universeId_of_find? h hw, heardOn_stepFor]
    rfl
  rw [ahead, crew_dispatch, List.map_append, List.sum_append, hleaving, Nat.add_zero, List.map_map]
  refine (congrArg List.sum hactive).trans ?_
  cases packet with
  | none => simp
  | some p =>
    by_cases hs : p.startCode = 0
    · simp [hs, isHeard, sum_indicator r.active_nodup, mem_active_iff]
    · simp [hs, isHeard]

/-- A dispatch at rest keeps the balance: its packet is one more, if its universe merges it. -/
theorem balanced_dispatch (h : Faithful timeout book r) (hr : r.AtRest) (hb : Balanced vs n r)
    (packet : Option Packet) (now : Nat) :
    Balanced vs (n + if packet.any r.isHeard then 1 else 0) (r.dispatch packet now) := by
  have hquiet := quiet_of_atRest h hr
  have houtlet := outlet_dispatch_of_atRest h hr packet now
  refine hb.carry _ (congrArg (·.counters) houtlet) (congrArg (·.packets.flow) houtlet)
    (congrArg (·.reports.flow) houtlet) ((inHand_dispatch hquiet _ _).trans hquiet.inHand.symm) ?_
  rw [ahead_dispatch h hr, hquiet.ahead, Nat.zero_add]

end Roster

end StreamingAcn
