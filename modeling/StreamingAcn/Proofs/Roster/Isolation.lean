/-
StreamingAcn.Proofs.Roster.Isolation — every universe is served as if it were the only one.

A call that finds the roster at rest finds every worker with an empty queue, so it does to each
worker what it says about the universe of that worker, and the roster stays faithful to its
chronicles. At rest nothing is owed any more: what has been received of a universe is told by its
chronicle alone. Neither the other universes nor the order of visits and stirs come into it, and of
its own past no more than what went out then.
-/
import StreamingAcn.Proofs.Roster.Faithful
import StreamingAcn.Proofs.Roster.Settling

namespace StreamingAcn.Roster

open Arbitration (Arbiter)
open Delivery (Item Outlet Step Worker)

variable {timeout : Nat} {book : UniverseId → Chronicle} {r r' : Roster}

/-! ## Calls at rest -/

/-- At rest the worker of an active universe owes nothing and waits. -/
theorem rested_of_atRest (h : Faithful timeout book r) (hr : r.AtRest) {u : UniverseId} {w : Worker}
    (hw : r.workers.find? u = some w) : w.phase = .waiting ∧ w.queue = [] := by
  obtain ⟨span, -, hserves⟩ := present_of_find? h hw
  obtain ⟨hmove, hitem⟩ := (atRest_iff.1 hr).2.1 u w hw
  exact Worker.rested hserves.serving hmove hitem

theorem owed_of_atRest (h : Faithful timeout book r) (hr : r.AtRest) (u : UniverseId) :
    r.owed u = [] := by
  cases hw : r.workers.find? u with
  | none => rw [owed, hw]
  | some w =>
    obtain ⟨hphase, hqueue⟩ := rested_of_atRest h hr hw
    rw [owed, hw]
    exact (Worker.due_of_rested hphase hqueue).1

/-- The chronicles after a call. -/
abbrev recorded (book : UniverseId → Chronicle) (e : Event) : UniverseId → Chronicle :=
  fun u => (book u).record u e

theorem record_of_not_activated {c : Chronicle} {u v : UniverseId} {now : Nat}
    {answer : Except ReceiverError Bool} (h : answer ≠ .ok true) :
    c.record u (.activate v now answer) = c := by
  rcases answer with e | b
  · rfl
  · cases b with
    | false => rfl
    | true => exact absurd rfl h

theorem result_eq_ok_true {a : Activation} (h : a.result = .ok true) : a = .activated := by
  cases a <;> simp [Activation.result] at h ⊢

theorem activation_eq_activated {u : UniverseId} {join : Except ReceiverError Unit}
    (h : r.activation u join = .activated) :
    UniverseId.check u = .ok () ∧ r.isClosed = false ∧ r.workers.find? u = none := by
  rw [activation_eq] at h
  unfold obstacle? at h
  split at h
  · cases h
  · next hcheck =>
    split at h
    · cases h
    · next hclosed =>
      split at h
      · cases h
      · next hactive =>
        rw [isActive, Directory.contains, Option.not_isSome_iff_eq_none] at hactive
        exact ⟨hcheck, by simpa using hclosed, hactive⟩

/-- A universe that becomes active is served by a worker that has seen nothing yet. -/
theorem faithful_activated (h : Faithful timeout book r) {u : UniverseId} {now : Nat}
    {join : Except ReceiverError Unit} (hact : r.activation u join = .activated) :
    Faithful timeout (recorded book (.activate u now (.ok true))) (r.activate u now join) := by
  obtain ⟨hcheck, hclosed, hnone⟩ := activation_eq_activated hact
  have hbook : ∀ v, recorded book (.activate u now (.ok true)) v =
      if u = v then (book v).begin now else book v := fun v => rfl
  have hroster : r.activate u now join =
      { r with workers := r.workers.insert u (Worker.start u r.timeout now), outlet := r.outlet } := by
    rw [activate, hact]
  rw [hroster]
  refine ⟨h.timeout_eq, h.fits, h.leaving, ?_, ?_, ?_⟩
  · intro v
    rw [hbook, Directory.find?_insert, h.timeout_eq]
    split
    · refine .present ⟨⟨rfl, rfl, rfl⟩, ?_, ?_⟩
      · subst v
        rfl
      · intro i hi
        cases hi
    · exact h.workers v
  · intro v
    have hacc := h.accounts v
    rw [owed_insert, hbook]
    split
    · next huv =>
      subst huv
      rw [owed, hnone] at hacc
      rw [Chronicle.items_begin]
      exact hacc
    · exact hacc
  · intro v hv
    rw [isActive, Directory.contains, Directory.find?_insert] at hv
    split at hv
    · next huv => exact huv ▸ ⟨hcheck, hclosed⟩
    · exact h.valid v hv

theorem activate_of_not_activated {u : UniverseId} {now : Nat} {join : Except ReceiverError Unit}
    (hact : r.activation u join ≠ .activated) : r.activate u now join = r := by
  unfold activate
  split
  · next hact' => exact absurd hact' hact
  · rfl

theorem faithful_activate (h : Faithful timeout book r) (u : UniverseId) (now : Nat)
    (join : Except ReceiverError Unit) :
    Faithful timeout (recorded book (.activate u now (r.activation u join).result))
      (r.activate u now join) := by
  by_cases hact : r.activation u join = .activated
  · rw [hact]
    exact faithful_activated h hact
  · have hbook : recorded book (.activate u now (r.activation u join).result) = book := by
      funext v
      exact record_of_not_activated fun hres => hact (result_eq_ok_true hres)
    rw [activate_of_not_activated hact, hbook]
    exact h

theorem spent_of_rested {w : Worker} (hp : w.phase = .waiting) (hq : w.queue = []) :
    Spent w.release ∧ Spent w.deactivate.release :=
  ⟨⟨hq, .inl hp⟩, ⟨hq, .inl hp⟩⟩

theorem faithful_deactivate (h : Faithful timeout book r) (hr : r.AtRest) (u : UniverseId) :
    Faithful timeout (recorded book (.deactivate u (r.isActive u))) (r.deactivate u) := by
  have hbook : ∀ v, recorded book (.deactivate u (r.isActive u)) v =
      if u = v then (book v).close else book v := fun v => rfl
  unfold deactivate
  split
  · next hnone =>
    have hsame : recorded book (.deactivate u (r.isActive u)) = book := by
      funext v
      rw [hbook]
      split
      · next huv =>
        subst huv
        exact Chronicle.close_of_none (present_of_find?_none h hnone)
      · rfl
    rw [hsame]
    exact h
  · next w hw =>
    obtain ⟨hphase, hqueue⟩ := rested_of_atRest h hr hw
    refine ⟨h.timeout_eq, h.fits, ?_, ?_, ?_, ?_⟩
    · intro v hv
      rcases List.mem_append.1 hv with hv | hv
      · exact h.leaving v hv
      · rw [List.mem_singleton.1 hv]
        exact (spent_of_rested hphase hqueue).2
    · intro v
      rw [hbook, Directory.find?_erase]
      split
      · exact .absent
      · exact h.workers v
    · intro v
      have hacc := h.accounts v
      rw [owed_erase, hbook]
      split
      · rw [owed_of_atRest h hr] at hacc
        rw [Chronicle.items_close]
        exact hacc
      · exact hacc
    · intro v hv
      refine h.valid v ?_
      rw [isActive, Directory.contains, Directory.find?_erase] at hv
      split at hv
      · cases hv
      · exact hv

/-- A worker at rest that is offered a step goes with the span that has this step at its end. -/
theorem serves_offer {w : Worker} {u : UniverseId} {span : Period} (h : Serves w u timeout span)
    (hp : w.phase = .waiting) (hq : w.queue = []) (s : Step) :
    (w.offer s).due = ((span.arbiter u timeout).item? s).toList ∧
      Serves (w.offer s) u timeout { span with steps := span.steps ++ [s] } := by
  obtain ⟨-, hdue, heventual⟩ := Worker.due_offer_of_rested hp hq s
  have harbiter : w.arbiter = span.arbiter u timeout :=
    (Worker.due_of_rested hp hq).2.symm.trans h.eventual
  rw [harbiter] at hdue heventual
  refine ⟨hdue, Worker.serving_offer h.serving s, ?_, ?_⟩
  · rw [heventual, Period.arbiter, Period.arbiter, Arbiter.after_append]
    rfl
  · intro i hi
    rw [hdue, Option.mem_toList] at hi
    rw [Arbiter.universeId_of_item? hi, Period.arbiter, Arbiter.after_universeId]
    rfl

theorem faithful_dispatch (h : Faithful timeout book r) (hr : r.AtRest) (packet : Option Packet)
    (now : Nat) (answer : Bool) :
    Faithful timeout (recorded book (.dispatch packet now answer)) (r.dispatch packet now) := by
  have hbook : ∀ v, recorded book (.dispatch packet now answer) v =
      (book v).extend (stepFor packet now v) := fun v => rfl
  obtain ⟨hpackets, hreports⟩ := sinks_dispatch r packet now
  refine ⟨h.timeout_eq, h.fits.of_sinks hpackets hreports, h.leaving, ?_, ?_, ?_⟩
  · intro v
    rw [hbook, find?_dispatch]
    cases hw : r.workers.find? v with
    | none =>
      have hspan := present_of_find?_none h hw
      rw [Chronicle.extend_of_none hspan, hspan]
      exact .absent
    | some w =>
      obtain ⟨span, hspan, hserves⟩ := present_of_find? h hw
      obtain ⟨hphase, hqueue⟩ := rested_of_atRest h hr hw
      rw [Chronicle.extend, hspan]
      exact .present (serves_offer hserves hphase hqueue _).2
  · intro v
    have hacc := h.accounts v
    rw [owed_of_atRest h hr] at hacc
    refine Accounts.of_flow ?_ (congrArg _ hpackets) (congrArg _ hreports)
    rw [owed, find?_dispatch, hbook]
    cases hw : r.workers.find? v with
    | none =>
      have hspan := present_of_find?_none h hw
      rw [Chronicle.extend_of_none hspan]
      exact hacc
    | some w =>
      obtain ⟨span, hspan, hserves⟩ := present_of_find? h hw
      obtain ⟨hphase, hqueue⟩ := rested_of_atRest h hr hw
      have hdue := (serves_offer hserves hphase hqueue (stepFor packet now v)).1
      rw [Chronicle.items_extend hspan]
      simp only [Option.map_some, hdue]
      exact hacc.owe _
  · intro v hv
    refine h.valid v ?_
    rw [isActive_dispatch] at hv
    exact hv

theorem faithful_shutdown (h : Faithful timeout book r) (hr : r.AtRest) :
    Faithful timeout (recorded book .shutdown) r.shutdown := by
  have hbook : ∀ v, recorded book .shutdown v = (book v).close := fun v => rfl
  unfold shutdown
  split
  · next hclosed =>
    have hsame : recorded book .shutdown = book := by
      funext v
      refine Chronicle.close_of_none ?_
      rw [← Option.not_isSome_iff_eq_none, isSome_present h]
      intro hactive
      rw [(h.valid v hactive).2] at hclosed
      cases hclosed
    rw [hsame]
    exact h
  · refine ⟨h.timeout_eq, h.fits, ?_, ?_, ?_, ?_⟩
    · intro v hv
      rcases List.mem_append.1 hv with hv | hv
      · exact h.leaving v hv
      · obtain ⟨w, hw, rfl⟩ := List.mem_map.1 hv
        obtain ⟨⟨u, w'⟩, hm, rfl⟩ := List.mem_map.1 hw
        obtain ⟨hphase, hqueue⟩ :=
          rested_of_atRest h hr ((Directory.mem_entries_iff _ _ _).1 hm)
        exact (spent_of_rested hphase hqueue).1
    · intro v
      exact .absent
    · intro v
      have hacc := h.accounts v
      rw [owed_of_atRest h hr] at hacc
      rw [hbook, Chronicle.items_close]
      exact hacc
    · intro v hv
      cases hv

/-- A call at rest keeps a roster faithful to what it says about every universe. -/
theorem faithful_call {e : Event} (h : Faithful timeout book r) (hr : r.AtRest)
    (hc : Called r e r') : Faithful timeout (recorded book e) r' := by
  cases hc with
  | activate u now join => exact faithful_activate h u now join
  | deactivate u => exact faithful_deactivate h hr u
  | dispatch packet now order ho =>
    rw [visit_eq_dispatch ho]
    exact faithful_dispatch h hr packet now _
  | shutdown => exact faithful_shutdown h hr

/-! ## Runs -/

theorem faithful_start (timeout capacity : Nat) :
    Faithful timeout (fun u => chronicle u []) (Roster.start timeout capacity) := by
  refine ⟨rfl, ⟨Nat.zero_le _, Nat.zero_le _⟩, ?_, ?_, ?_, ?_⟩
  · intro w hw
    cases hw
  · intro u
    exact .absent
  · intro u
    exact ⟨rfl, rfl⟩
  · intro u hu
    cases hu

theorem faithful_run {capacity : Nat} {log : List Event}
    (h : Run (Roster.start timeout capacity) log r) :
    Faithful timeout (fun u => chronicle u log) r := by
  induction h with
  | nil => exact faithful_start timeout capacity
  | @call log e r r' r'' h hc hs hr ih =>
    have hcalled := faithful_call ih (h.atRest (atRest_start timeout capacity)) hc
    have hbook : recorded (fun u => chronicle u log) e = fun u => chronicle u (log ++ [e]) := by
      funext u
      rw [chronicle_concat]
    rw [hbook] at hcalled
    clear hr
    induction hs with
    | refl => exact hcalled
    | tail _ hstir ih => exact faithful_stir ih hstir

/-- A request to activate an active universe changes nothing. -/
theorem reactivate (h : Faithful timeout book r) {u : UniverseId} (hu : r.isActive u) {now : Nat}
    {answer : Except ReceiverError Bool} (hc : Called r (.activate u now answer) r') :
    answer = .ok false ∧ r' = r := by
  obtain ⟨hcheck, hclosed⟩ := h.valid u hu
  cases hc with
  | activate _ _ join =>
    have hact : r.activation u join = .alreadyActive := by
      simp [activation_eq, obstacle?, hcheck, hclosed, hu]
    rw [activate, hact]
    exact ⟨rfl, rfl⟩

theorem dispatch_answer {packet : Option Packet} {now : Nat} {answer : Bool}
    (hc : Called r (.dispatch packet now answer) r') :
    answer = true ↔ ∃ p, packet = some p ∧ r.isActive p.universeId := by
  cases hc with
  | dispatch _ _ order ho =>
    rw [visit_eq_dispatch ho]
    cases packet with
    | none => simp
    | some p => simp [Option.filter]

/-- What a run puts out for a universe is what arbiters of its own put out, one for each span in
which it was active, on the steps dispatched in that span. A request to activate an active universe
changes nothing, a dispatch finds its universe exactly if that is active, and whatever is called
next, the run goes on. -/
theorem isolation {timeout capacity : Nat} {log : List Event} {r : Roster}
    (h : Run (Roster.start timeout capacity) log r) (u : UniverseId) :
    r.outlet.packets.received.filter (fun p => p.universeId = u) =
        ((chronicle u log).items u timeout).filterMap Item.packet? ∧
      r.outlet.reports.received.filter (fun e => e.universeId = u) =
        ((chronicle u log).items u timeout).filterMap Item.report? ∧
      r.isActive u = (chronicle u log).present.isSome ∧
      (∀ now answer r', r.isActive u → Called r (.activate u now answer) r' →
        answer = .ok false ∧ r' = r) ∧
      (∀ packet now answer r', Called r (.dispatch packet now answer) r' →
        (answer = true ↔ ∃ p, packet = some p ∧ r.isActive p.universeId)) ∧
      ∀ e r', Called r e r' → Run (Roster.start timeout capacity) (log ++ [e]) r'.settle := by
  have hstart := atRest_start timeout capacity
  have hfaithful := faithful_run h
  have hrest := h.atRest hstart
  obtain ⟨hpackets, hreports⟩ := (atRest_iff.1 hrest).1
  have hacc := hfaithful.accounts u
  rw [owed_of_atRest hfaithful hrest] at hacc
  refine ⟨?_, ?_, ?_, ?_, ?_, ?_⟩
  · rw [← hacc.packets, Delivery.Sink.flow, hpackets]
    simp
  · rw [← hacc.reports, Delivery.Sink.flow, hreports]
    simp
  · exact (isSome_present hfaithful u).symm
  · intro now answer r' hu hc
    exact reactivate hfaithful hu hc
  · intro packet now answer r' hc
    exact dispatch_answer hc
  · intro e r' hc
    exact h.settled hstart hc

/-- Of two active universes one is sent a packet, and the other has been silent for too long. -/
theorem isolation_two_universes :
    ∃ r, Run (Roster.start 10 4)
        [.activate 1 0 (.ok true), .activate 2 0 (.ok true),
          .dispatch (some { universeId := 1, slots := [42] }) 30 true] r ∧
      r.outlet.packets.received.filter (fun p => p.universeId = 1) =
        [{ universeId := 1, slots := [42] }] ∧
      r.outlet.reports.received.filter (fun e => e.universeId = 2) = [⟨2, .timeout⟩] := by
  have h0 := atRest_start 10 4
  have h1 := Run.settled h0 .nil (.activate 1 0 (.ok ()))
  have h2 := Run.settled h0 h1 (.activate 2 0 (.ok ()))
  have h3 := Run.settled h0 h2
    (.dispatch (some { universeId := 1, slots := [42] }) 30 [1, 2] (by decide))
  refine ⟨_, h3, ?_, ?_⟩
  · exact (isolation h3 1).1.trans (by decide)
  · exact (isolation h3 2).2.1.trans (by decide)

end StreamingAcn.Roster
