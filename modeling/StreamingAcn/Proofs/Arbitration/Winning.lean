/-
StreamingAcn.Proofs.Arbitration.Winning — the verdict on a packet, told from the trace.

An arbiter judges a packet by its table of sources, and the table forgets lazily. The statement
here speaks of the trace instead: of the sources heard within the timeout, of the credit that each
of them has, and of the packet that was accepted last. `verdict_of_trace` gives every verdict its
exact condition in these terms.

`Leads` is the notion it turns on: a live source whose credit no live source exceeds. The
assumption is that time does not go back along the run; no assumption is made on who sends what.
-/
import StreamingAcn.Proofs.Arbitration.Sources

namespace StreamingAcn.Arbitration

open Delivery (Step)

/-! ## Lists of winners -/

/-- A list without repetitions has two elements if and only if two different things are in it. -/
theorem one_lt_length_iff_of_nodup {α : Type} {l : List α} (h : l.Nodup) :
    1 < l.length ↔ ∃ a b, a ≠ b ∧ a ∈ l ∧ b ∈ l := by
  constructor
  · intro hlen
    match l with
    | a :: b :: rest =>
      have hne : a ≠ b := fun he => by simp [he] at h
      exact ⟨a, b, hne, List.mem_cons_self, List.mem_cons_of_mem _ List.mem_cons_self⟩
  · rintro ⟨a, b, hne, ha, hb⟩
    match l with
    | [c] => exact absurd ((List.mem_singleton.1 ha).trans (List.mem_singleton.1 hb).symm) hne
    | _ :: _ :: _ => simp

theorem eq_singleton_iff_of_nodup {α : Type} {l : List α} (h : l.Nodup) (a : α) :
    l = [a] ↔ ∀ b, b ∈ l ↔ b = a := by
  rw [← List.perm_singleton, List.perm_ext_iff_of_nodup h (by simp)]
  simp only [List.mem_singleton]

/-- One element at most, and not this one: then exactly one, and another. -/
theorem only_other_iff {α : Type} {l : List α} (h : l.Nodup) (hne : l ≠ []) (a : α) :
    l.length ≤ 1 ∧ a ∉ l ↔ ∃ b, b ≠ a ∧ ∀ c, c ∈ l ↔ c = b := by
  constructor
  · rintro ⟨hlen, ha⟩
    obtain ⟨b, rfl⟩ := List.length_eq_one_iff.1
      (Nat.le_antisymm hlen (List.length_pos_iff.2 hne))
    refine ⟨b, fun he => ha (he ▸ List.mem_singleton_self b), fun c => List.mem_singleton⟩
  · rintro ⟨b, hb, hall⟩
    rw [(eq_singleton_iff_of_nodup h b).2 hall]
    exact ⟨Nat.le_refl 1, fun ha => hb (List.mem_singleton.1 ha).symm⟩

/-! ## Leading -/

/-- Whether a live source has a credit that no live source exceeds. -/
def Leads (live : Cid → Prop) (t : SourceTable) (c : Cid) : Prop :=
  ∃ s, live c ∧ t.find? c = some s ∧ ∀ d s', live d → t.find? d = some s' → s'.credit ≤ s.credit

/-- Where the live sources are those with a standing, leading is winning. -/
theorem leads_iff_mem_winners {live : Cid → Prop} {t : SourceTable}
    (h : ∀ c, (t.find? c).isSome ↔ live c) (c : Cid) : Leads live t c ↔ c ∈ t.winners := by
  have hlive : ∀ {d s}, t.find? d = some s → live d := fun {d _} hd => (h d).1 (by simp [hd])
  rw [SourceTable.mem_winners_iff]
  constructor
  · rintro ⟨s, -, hs, hmax⟩
    exact ⟨s, hs, fun d s' hd => hmax d s' (hlive hd) hd⟩
  · rintro ⟨s, hs, hmax⟩
    exact ⟨s, hlive hs, hs, fun d s' _ hd => hmax d s' hd⟩

/-- Where one source alone leads, the credit of every other live source is below its credit. -/
theorem credit_lt_of_only_leads {live : Cid → Prop} {t : SourceTable} {a c : Cid} {r : Standing}
    (only : ∀ d, Leads live t d ↔ d = a) (hne : c ≠ a) (hc : live c) (hr : t.find? c = some r) :
    ∃ s, t.find? a = some s ∧ r.credit < s.credit := by
  obtain ⟨s, ha, hs, hmax⟩ := (only a).2 rfl
  refine ⟨s, hs, UInt8.not_le.1 fun hge => hne ((only c).1 ⟨r, hc, hr, ?_⟩)⟩
  intro d s' hd hs'
  exact UInt8.le_trans (hmax d s' hd hs') hge

/-- A source that is live on its own leads, and nothing else does. -/
theorem only_leads_of_only_live {live : Cid → Prop} {t : SourceTable} {a : Cid} {s : Standing}
    (ha : live a) (hs : t.find? a = some s) (only : ∀ c, live c → c = a) (d : Cid) :
    Leads live t d ↔ d = a := by
  constructor
  · rintro ⟨-, hd, -, -⟩
    exact only d hd
  · rintro rfl
    refine ⟨s, ha, hs, fun e s' he hs' => ?_⟩
    rw [only e he, hs, Option.some.injEq] at hs'
    exact hs' ▸ UInt8.le_refl _

/-! ## One packet at the end of a run -/

section Packet

variable {u : UniverseId} {timeout start now : Nat} {past : List Step} {p : Packet}

theorem heardOn_packet (hu : p.universeId = u) (hc : p.startCode = 0) :
    (⟨some p, now⟩ : Step).heardOn u = some p := by
  simp [Step.heardOn, hu, hc]

/-- What the universe has seen once the packet is heard. -/
theorem sightings_concat (hu : p.universeId = u) (hc : p.startCode = 0) :
    sightings u (past ++ [⟨some p, now⟩]) = sightings u past ++ [⟨p.cid, p.priority, now⟩] := by
  rw [sightings_append, sightings_heard (heardOn_packet hu hc)]

/-- The table that the packet is judged by. -/
theorem hear_sources (hu : p.universeId = u) (hc : p.startCode = 0) :
    (((Arbiter.start u timeout start).after past).hear p now).sources =
      SourceTable.hearAll timeout (sightings u (past ++ [⟨some p, now⟩])) := by
  rw [sightings_concat hu hc, SourceTable.hearAll_concat, ← Arbiter.after_sources u timeout start]
  show SourceTable.hear _ ((Arbiter.start u timeout start).after past).timeout _ _ _ = _
  rw [Arbiter.after_timeout]
  rfl

/-- The table after the packet is the one that it was judged by. -/
theorem next_sources_of_packet (hu : p.universeId = u) (hc : p.startCode = 0) :
    (((Arbiter.start u timeout start).after past).next ⟨some p, now⟩).sources =
      (((Arbiter.start u timeout start).after past).hear p now).sources := by
  have hh : (⟨some p, now⟩ : Step).heardOn ((Arbiter.start u timeout start).after past).universeId =
      some p := by
    rw [Arbiter.after_universeId]
    exact heardOn_packet hu hc
  rw [Arbiter.next_of_heard hh, Arbiter.judge_sources]

/-- After a packet the sources with a standing are the live ones. -/
theorem standing_iff_live (hu : p.universeId = u) (hc : p.startCode = 0)
    (ordered : InOrder (past ++ [⟨some p, now⟩])) (c : Cid) :
    ((((Arbiter.start u timeout start).after past).hear p now).sources.find? c).isSome ↔
      IsLive timeout (sightings u (past ++ [⟨some p, now⟩])) now c := by
  have hs := sightings_ordered (u := u) ordered
  rw [sightings_concat hu hc] at hs
  rw [hear_sources hu hc, sightings_concat hu hc]
  exact find?_isSome_iff_live (x := ⟨p.cid, p.priority, now⟩) hs c

/-- The sender of the packet that came last is live. -/
theorem sender_isLive (hu : p.universeId = u) (hc : p.startCode = 0) :
    IsLive timeout (sightings u (past ++ [⟨some p, now⟩])) now p.cid := by
  rw [sightings_concat hu hc]
  refine ⟨⟨p.cid, p.priority, now⟩, ?_, ?_⟩
  · rw [lastSighting?_concat, if_pos rfl]
  · simp

/-- The packet is judged by the winners among the live sources, and the sender at least is one of
those sources. -/
theorem winnersOn_ne_nil (hu : p.universeId = u) (hc : p.startCode = 0)
    (ordered : InOrder (past ++ [⟨some p, now⟩])) :
    ((Arbiter.start u timeout start).after past).winnersOn p now ≠ [] := by
  have hsome : ((((Arbiter.start u timeout start).after past).hear p now).sources.find?
      p.cid).isSome :=
    (standing_iff_live hu hc ordered p.cid).2 (sender_isLive hu hc)
  obtain ⟨s, hs⟩ := Option.isSome_iff_exists.1 hsome
  exact SourceTable.winners_ne_nil hs

/-- The credit of a live source is at least the priority of the last packet it sent. -/
theorem le_credit_of_last (hu : p.universeId = u) (hc : p.startCode = 0) {c : Cid} {s : Standing}
    {x : Sighting}
    (hs : (((Arbiter.start u timeout start).after past).hear p now).sources.find? c = some s)
    (hx : lastSighting? c (sightings u (past ++ [⟨some p, now⟩])) = some x) :
    x.priority ≤ s.credit := by
  rw [hear_sources hu hc] at hs
  obtain ⟨y, hy, -, hle⟩ := (tracks_hearAll timeout _).known hs
  rw [hx, Option.some.injEq] at hy
  exact hy ▸ hle

end Packet

/-- The verdict on a packet, told from the trace: by the sources heard within the timeout, the
credits that they have once the packet is heard, and the packet that was accepted last. -/
theorem verdict_of_trace {u : UniverseId} {timeout start : Nat} {past : List Step} {p : Packet}
    {now : Nat} (addressed : p.universeId = u) (levels : p.startCode = 0)
    (ordered : InOrder (past ++ [⟨some p, now⟩])) :
    let fresh := Arbiter.start u timeout start
    let verdict := (fresh.after past).verdict ⟨some p, now⟩
    let standings := ((fresh.after past).next ⟨some p, now⟩).sources
    let live := IsLive timeout (sightings u (past ++ [⟨some p, now⟩])) now
    let leads := Leads live standings
    (∀ c, live c → (standings.find? c).isSome) ∧
    (verdict = .conflict ↔ ∃ c d, c ≠ d ∧ leads c ∧ leads d) ∧
    (verdict = .dropped ↔ ∃ c, c ≠ p.cid ∧ ∀ d, leads d ↔ d = c) ∧
    (verdict.accepts = true ↔ (∀ d, leads d ↔ d = p.cid) ∧
      ∀ q, fresh.lastAccepted? past = some q → isStale q.sequenceNumber p.sequenceNumber = false) ∧
    (verdict = .stale ↔ (∀ d, leads d ↔ d = p.cid) ∧
      ∃ q, fresh.lastAccepted? past = some q ∧ isStale q.sequenceNumber p.sequenceNumber = true) ∧
    (verdict.accepts = true → ∀ c x, c ≠ p.cid → lastSighting? c (sightings u past) = some x →
      now - x.time ≤ timeout → ∃ s, standings.find? p.cid = some s ∧ x.priority < s.credit) ∧
    ((∀ c x, c ≠ p.cid → lastSighting? c (sightings u past) = some x → timeout < now - x.time) →
      (∀ d, leads d ↔ d = p.cid) ∧ verdict ≠ .conflict ∧ verdict ≠ .dropped) := by
  intro fresh verdict standings live leads
  let a := fresh.after past
  have hstandings : standings = (a.hear p now).sources := next_sources_of_packet addressed levels
  have hlive : ∀ c, (standings.find? c).isSome ↔ live c := by
    rw [hstandings]
    exact standing_iff_live addressed levels ordered
  have hnodup : (a.winnersOn p now).Nodup := SourceTable.winners_nodup _
  have hleads : ∀ c, c ∈ a.winnersOn p now ↔ leads c := by
    intro c
    show c ∈ SourceTable.winners (a.hear p now).sources ↔ leads c
    rw [← hstandings]
    exact (leads_iff_mem_winners hlive c).symm
  have honly : a.winnersOn p now = [p.cid] ↔ ∀ d, leads d ↔ d = p.cid := by
    rw [eq_singleton_iff_of_nodup hnodup]
    simp only [hleads]
  have hverdict : verdict = (a.judge p now).1 :=
    Arbiter.verdict_of_heard ((fresh.after_universeId past).symm ▸ heardOn_packet addressed levels)
  obtain ⟨hconflict, hdropped, hstale, haccepts⟩ := a.judge_verdict_iff p now
  rw [← hverdict] at hconflict hdropped hstale haccepts
  have hfresh := Arbiter.isStale_after_start u timeout start past p
  refine ⟨fun c => (hlive c).2, ?_, ?_, ?_, ?_, ?_, ?_⟩
  · rw [hconflict, one_lt_length_iff_of_nodup hnodup]
    simp only [hleads]
  · rw [hdropped, only_other_iff hnodup (winnersOn_ne_nil addressed levels ordered)]
    simp only [hleads]
  · rw [haccepts, honly]
    refine and_congr_right fun _ => ?_
    rw [← Bool.not_eq_true, hfresh]
    constructor
    · intro hn q hq
      exact Bool.eq_false_iff.2 fun hs => hn ⟨q, hq, hs⟩
    · rintro hall ⟨q, hq, hs⟩
      exact Bool.eq_false_iff.1 (hall q hq) hs
  · rw [hstale, honly, hfresh]
  · intro haccepted c x hne hx hrecent
    -- The rival is live, so it has a standing, with at least the credit that it sent last.
    have hx' : lastSighting? c (sightings u (past ++ [⟨some p, now⟩])) = some x := by
      rw [sightings_concat addressed levels, lastSighting?_concat, if_neg (Ne.symm hne)]
      exact hx
    obtain ⟨r, hr⟩ := Option.isSome_iff_exists.1 ((hlive c).2 ⟨x, hx', hrecent⟩)
    have hle : x.priority ≤ r.credit := le_credit_of_last addressed levels (hstandings ▸ hr) hx'
    obtain ⟨s, hs, hlt⟩ :=
      credit_lt_of_only_leads (honly.1 (haccepts.1 haccepted).1) hne ⟨x, hx', hrecent⟩ hr
    exact ⟨s, hs, UInt8.lt_of_le_of_lt hle hlt⟩
  · intro hsilent
    have hsender : live p.cid := sender_isLive addressed levels
    have halone : ∀ c, live c → c = p.cid := by
      rintro c ⟨x, hx, hrecent⟩
      by_contra hne
      rw [sightings_concat addressed levels, lastSighting?_concat, if_neg (Ne.symm hne)] at hx
      exact absurd (hsilent c x hne hx) (Nat.not_lt.2 hrecent)
    obtain ⟨s, hs⟩ := Option.isSome_iff_exists.1 ((hlive p.cid).2 hsender)
    have hall : ∀ d, leads d ↔ d = p.cid := only_leads_of_only_live hsender hs halone
    have hone := honly.2 hall
    refine ⟨hall, fun hv => ?_, fun hv => ?_⟩
    · have := hconflict.1 hv
      simp [hone] at this
    · have := hdropped.1 hv
      simp [hone] at this

/-- A source of lower priority takes over once its rival has been silent for a nanosecond more than
the timeout, and is the only one that leads from then on. -/
theorem verdict_of_trace_takeover :
    let rival : Packet := { universeId := 1, priority := 150, sequenceNumber := 9, slots := [1] }
    let sender : Packet :=
      { universeId := 1, cid := ⟨List.replicate 16 1, by decide⟩, sequenceNumber := 30, slots := [2] }
    let past : List Step := [⟨some rival, 0⟩, ⟨some sender, 2500⟩]
    let fresh := Arbiter.start 1 2500 0
    rival.cid ≠ sender.cid ∧ InOrder (past ++ [⟨some sender, 2501⟩]) ∧
      (fresh.after past).verdict ⟨some sender, 2501⟩ = .emitted ∧
      ∀ d, Leads (IsLive 2500 (sightings 1 (past ++ [⟨some sender, 2501⟩])) 2501)
        ((fresh.after past).next ⟨some sender, 2501⟩).sources d ↔ d = sender.cid := by
  intro rival sender past fresh
  have hv : (fresh.after past).verdict ⟨some sender, 2501⟩ = .emitted := by decide +kernel
  have h := @verdict_of_trace 1 2500 0 past sender 2501 rfl rfl (by decide)
  exact ⟨by decide, by decide, hv, (h.2.2.2.1.1 (by rw [hv]; rfl)).1⟩

end StreamingAcn.Arbitration
