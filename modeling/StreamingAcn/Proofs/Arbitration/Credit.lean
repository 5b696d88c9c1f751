/-
StreamingAcn.Proofs.Arbitration.Credit — what a source is credited with, told from what it sent.

A standing has room for one priority and for the time at which that priority was last sent. What a
source is credited with is always the priority of a packet that it sent, at most the timeout before
its latest one, and every packet since then had a lower priority. So the credit never lags behind.

It does not remember everything, though. A priority that is sent while a higher one is credited is
not taken down, and when the higher credit runs out the source gets the priority that it sends at
that moment. A source that ramps down in steps can so lose a priority that it sent within the
timeout. Within the timeout after a packet, `Overshadowed` is exactly the case in which its source
is credited with less.

Definitions:

* `sightingsOf`: what was heard of one source;
* `holder?`: the packet of a source that has its credit;
* `Backs`: how a standing goes back to what its source sent;
* `Hides`, `Overshadowed`: a packet that came while a higher one had the credit, and of which nothing
  is left when that one has run out.

Main statements: `credit_was_sent`, `recent_priority_kept`, `credit_below_recent_priority`.
-/
import StreamingAcn.Proofs.Arbitration.Attendance
import StreamingAcn.Proofs.Arbitration.Freshness
import StreamingAcn.Proofs.Arbitration.Winning

namespace StreamingAcn.Arbitration

open Delivery (Step)

/-- What was heard of one source, oldest first. -/
def sightingsOf (c : Cid) (seen : List Sighting) : List Sighting := seen.filter (·.cid = c)

theorem sightingsOf_concat (c : Cid) (seen : List Sighting) (x : Sighting) :
    sightingsOf c (seen ++ [x]) = sightingsOf c seen ++ if x.cid = c then [x] else [] := by
  by_cases h : x.cid = c <;> simp [sightingsOf, h]

/-! ## The packet that has the credit -/

/-- Which of two packets of a source has the credit after the later one: it takes the credit from one
of no higher priority, and from one that is more than the timeout old. -/
def takeOver (timeout : Nat) (y x : Sighting) : Sighting :=
  if y.priority ≤ x.priority ∨ y.time + timeout < x.time then x else y

/-- The packet that has the credit of a source, told from all that the source sent. -/
def holder? (timeout : Nat) : List Sighting → Option Sighting
  | [] => none
  | x :: sent => some (sent.foldl (takeOver timeout) x)

variable {timeout : Nat} {sent seen before after ws : List Sighting} {s : Standing}
  {x y : Sighting}

theorem takeOver_cases (timeout : Nat) (y x : Sighting) :
    ((y.priority ≤ x.priority ∨ y.time + timeout < x.time) ∧ takeOver timeout y x = x) ∨
    (x.priority < y.priority ∧ x.time ≤ y.time + timeout ∧ takeOver timeout y x = y) := by
  unfold takeOver
  split
  · next h => exact .inl ⟨h, rfl⟩
  · next h =>
    rw [not_or, UInt8.not_le, Nat.not_lt] at h
    exact .inr ⟨h.1, h.2, rfl⟩

theorem holder?_append (h : holder? timeout sent = some y) (later : List Sighting) :
    holder? timeout (sent ++ later) = some (later.foldl (takeOver timeout) y) := by
  cases sent with
  | nil => cases h
  | cons x rest =>
    obtain rfl := Option.some.inj h
    exact congrArg some List.foldl_append

theorem holder?_concat (h : holder? timeout sent = some y) (x : Sighting) :
    holder? timeout (sent ++ [x]) = some (takeOver timeout y x) := holder?_append h [x]

theorem holder?_eq_none_iff : holder? timeout sent = none ↔ sent = [] := by
  cases sent with
  | nil => exact iff_of_true rfl rfl
  | cons x rest => exact iff_of_false nofun nofun

/-- All packets after the one that has the credit have lower priorities. -/
theorem exists_split_of_holder? (h : holder? timeout sent = some y) :
    ∃ past later, sent = past ++ y :: later ∧ ∀ w ∈ later, w.priority < y.priority := by
  induction sent using List.reverseRecOn generalizing y with
  | nil => cases h
  | append_singleton sent x ih =>
    cases hbefore : holder? timeout sent with
    | none =>
      obtain rfl := holder?_eq_none_iff.1 hbefore
      obtain rfl := Option.some.inj h
      exact ⟨[], [], rfl, nofun⟩
    | some z =>
      rw [holder?_concat hbefore, Option.some.injEq] at h
      rcases takeOver_cases timeout z x with ⟨-, htake⟩ | ⟨hlower, -, htake⟩
      · obtain rfl := htake.symm.trans h
        exact ⟨sent, [], rfl, nofun⟩
      · obtain rfl := htake.symm.trans h
        obtain ⟨past, later, hsent, hall⟩ := ih hbefore
        refine ⟨past, later ++ [x], by rw [hsent, List.append_assoc, List.cons_append], ?_⟩
        intro w hw
        rcases List.mem_append.1 hw with hw | hw
        · exact hall w hw
        · rw [List.mem_singleton.1 hw]
          exact hlower

theorem mem_of_holder? (h : holder? timeout sent = some y) : y ∈ sent := by
  obtain ⟨past, later, hsent, -⟩ := exists_split_of_holder? h
  simp [hsent]

/-! ## One packet -/

/-- What a packet does to a standing: it takes the credit, or only shows that the source is there. -/
theorem Standing.hear_cases (s : Standing) (timeout : Nat) (priority : UInt8) (now : Nat) :
    ((s.credit ≤ priority ∨ s.creditedAt + timeout < now) ∧
      s.hear timeout priority now = .first priority now) ∨
    (priority < s.credit ∧ now ≤ s.creditedAt + timeout ∧
      s.hear timeout priority now = { s with heardAt := now }) := by
  unfold hear
  split
  · next h => exact .inl ⟨h.imp_right lapsed_iff.1, rfl⟩
  · next h =>
    rw [lapsed_iff, not_or, UInt8.not_le, Nat.not_lt] at h
    exact .inr ⟨h.1, h.2, rfl⟩

/--
How a standing goes back to what its source sent: the credit is the priority of the packet that has
it, given when that came, and the last packet came when the source was last heard, no more than the
timeout later.
-/
structure Backs (timeout : Nat) (sent : List Sighting) (s : Standing) : Prop where
  credited : ∃ x, holder? timeout sent = some x ∧ x.priority = s.credit ∧ x.time = s.creditedAt
  heard : ∃ x, sent.getLast? = some x ∧ x.time = s.heardAt
  since : s.creditedAt ≤ s.heardAt
  held : s.heardAt ≤ s.creditedAt + timeout

/-- A packet that takes the credit, whatever was known of its source. -/
theorem backs_first (h : holder? timeout (sent ++ [x]) = some x) :
    Backs timeout (sent ++ [x]) (.first x.priority x.time) where
  credited := ⟨x, h, rfl, rfl⟩
  heard := ⟨x, List.getLast?_concat .., rfl⟩
  since := Nat.le_refl _
  held := Nat.le_add_right _ _

/-- Another packet of the source, no earlier than the last one. -/
theorem Backs.hear (h : Backs timeout sent s) (hx : s.heardAt ≤ x.time) :
    Backs timeout (sent ++ [x]) (s.hear timeout x.priority x.time) := by
  obtain ⟨y, hy, hpriority, htime⟩ := h.credited
  have hnext := holder?_concat hy x
  rcases s.hear_cases timeout x.priority x.time with ⟨htakes, hhear⟩ | ⟨hlower, hheld, hhear⟩
  · rw [← hpriority, ← htime] at htakes
    rw [takeOver, if_pos htakes] at hnext
    rw [hhear]
    exact backs_first hnext
  · have hkeeps : ¬ (y.priority ≤ x.priority ∨ y.time + timeout < x.time) := by
      rw [hpriority, htime, not_or, UInt8.not_le, Nat.not_lt]
      exact ⟨hlower, hheld⟩
    rw [takeOver, if_neg hkeeps] at hnext
    rw [hhear]
    exact ⟨⟨y, hnext, hpriority, htime⟩, ⟨x, List.getLast?_concat .., rfl⟩,
      Nat.le_trans h.since hx, hheld⟩

/-! ## Runs -/

/-- A packet of a source that has been forgotten takes the credit: what had it before is more than the
timeout old. -/
theorem holder?_of_forgotten (ordered : (seen ++ [x]).Pairwise (fun a b => a.time ≤ b.time))
    (hnone : (SourceTable.hearAll timeout seen).find? x.cid = none) :
    holder? timeout (sightingsOf x.cid seen ++ [x]) = some x := by
  cases hh : holder? timeout (sightingsOf x.cid seen) with
  | none => rw [holder?_eq_none_iff.1 hh, List.nil_append, holder?, List.foldl_nil]
  | some y =>
    obtain ⟨hy, hcid⟩ := List.mem_filter.1 (mem_of_holder? hh)
    obtain ⟨l, hl, hle⟩ := exists_lastSighting? (List.pairwise_append.1 ordered).1 hy
    rw [of_decide_eq_true hcid] at hl
    obtain ⟨z, hz, hlt⟩ := (tracks_hearAll timeout seen).forgotten hnone hl
    have hzx := time_le_of_ordered ordered z (List.mem_append_left _ hz)
    rw [holder?_concat hh, takeOver, if_pos (.inr (by omega))]

/-- After any packets in order of time every standing goes back to what its source sent. -/
theorem backs_hearAll (ordered : seen.Pairwise (fun a b => a.time ≤ b.time)) {c : Cid}
    (hs : (SourceTable.hearAll timeout seen).find? c = some s) :
    Backs timeout (sightingsOf c seen) s := by
  induction seen using List.reverseRecOn generalizing s with
  | nil => cases hs
  | append_singleton seen x ih =>
    have hbefore := (List.pairwise_append.1 ordered).1
    rw [SourceTable.hearAll_concat, SourceTable.find?_hear] at hs
    rw [sightingsOf_concat]
    by_cases hc : x.cid = c
    · rw [if_pos hc, Option.some.injEq] at hs
      rw [if_pos hc, ← hs, hc]
      cases ht : (SourceTable.hearAll timeout seen).find? c with
      | none => exact backs_first (hc ▸ holder?_of_forgotten ordered (hc ▸ ht))
      | some s₀ =>
        have hback := ih hbefore ht
        obtain ⟨y, hy, htime⟩ := hback.heard
        have hmem : y ∈ seen ++ [x] :=
          List.mem_append_left _ (mem_of_lastSighting? (c := c) hy).1
        exact hback.hear (htime ▸ time_le_of_ordered ordered y hmem)
    · rw [if_neg hc] at hs ⊢
      rw [List.append_nil]
      exact ih hbefore (Option.filter_eq_some_iff.1 hs).1

/-- A source is credited with the priority of a packet that it sent, at the time that the standing
says and at most the timeout before its latest one; all its packets since had lower priorities. -/
theorem credit_was_sent {timeout : Nat} {seen : List Sighting}
    (ordered : seen.Pairwise (fun a b => a.time ≤ b.time)) {c : Cid} {s : Standing}
    (hs : (SourceTable.hearAll timeout seen).find? c = some s) :
    (∃ past x later, seen.filter (·.cid = c) = past ++ x :: later ∧ x.priority = s.credit ∧
      x.time = s.creditedAt ∧ ∀ y ∈ later, y.priority < s.credit) ∧
    s.creditedAt ≤ s.heardAt ∧ s.heardAt ≤ s.creditedAt + timeout ∧
    ∃ x, lastSighting? c seen = some x ∧ x.time = s.heardAt ∧ x.priority ≤ s.credit := by
  have hback := backs_hearAll ordered hs
  obtain ⟨y, hy, hpriority, htime⟩ := hback.credited
  obtain ⟨past, later, hsent, hall⟩ := exists_split_of_holder? hy
  obtain ⟨x, hx, hheard, hle⟩ := (tracks_hearAll timeout seen).known hs
  exact ⟨⟨past, y, later, hsent, hpriority, htime, hpriority ▸ hall⟩, hback.since, hback.held,
    x, hx, hheard.symm, hle⟩

/-- A source that goes down from 150 to 120 and to 90 is credited with 150, sent at 0, for as long as
the timeout has not passed since. -/
theorem credit_was_sent_on_ramp :
    let ramp : List Sighting := [⟨Cid.zero, 150, 0⟩, ⟨Cid.zero, 120, 1000⟩, ⟨Cid.zero, 90, 2500⟩]
    ∃ s, (SourceTable.hearAll 2500 ramp).find? Cid.zero = some s ∧ s.credit = 150 ∧
      s.creditedAt ≤ s.heardAt ∧ s.heardAt ≤ s.creditedAt + 2500 := by
  intro ramp
  have hs : (SourceTable.hearAll 2500 ramp).find? Cid.zero = some ⟨2500, 0, 150⟩ := by
    decide +kernel
  obtain ⟨-, hsince, hheld, -⟩ := credit_was_sent (by decide) hs
  exact ⟨_, hs, rfl, hsince, hheld⟩

/-! ## What is kept -/

/-- A packet `y` of a source hides a later packet `x` of it: `y` had a higher priority and was no more
than the timeout old when `x` came, nothing as high as `y` was sent for as long as it was no more
than the timeout old, and when it was, something was sent, but nothing as high as `x`. -/
structure Hides (timeout : Nat) (y x : Sighting) (after : List Sighting) : Prop where
  higher : x.priority < y.priority
  held : x.time ≤ y.time + timeout
  notRenewed : ∀ w ∈ after, w.time ≤ y.time + timeout → w.priority < y.priority
  ranOut : ∃ w ∈ after, y.time + timeout < w.time
  lower : ∀ w ∈ after, y.time + timeout < w.time → w.priority < x.priority

theorem hides_iff {timeout : Nat} {y x : Sighting} {after : List Sighting} :
    Hides timeout y x after ↔ x.priority < y.priority ∧ x.time ≤ y.time + timeout ∧
      (∀ w ∈ after, w.time ≤ y.time + timeout → w.priority < y.priority) ∧
      (∃ w ∈ after, y.time + timeout < w.time) ∧
      ∀ w ∈ after, y.time + timeout < w.time → w.priority < x.priority :=
  ⟨fun h => ⟨h.higher, h.held, h.notRenewed, h.ranOut, h.lower⟩,
    fun ⟨higher, held, notRenewed, ranOut, lower⟩ => ⟨higher, held, notRenewed, ranOut, lower⟩⟩

instance (timeout : Nat) (y x : Sighting) (after : List Sighting) :
    Decidable (Hides timeout y x after) := decidable_of_iff' _ hides_iff

/-- A packet is overshadowed if it is hidden by the packet that had the credit of its source when it
came. -/
def Overshadowed (timeout : Nat) (before : List Sighting) (x : Sighting) (after : List Sighting) :
    Prop :=
  ∃ y ∈ holder? timeout (sightingsOf x.cid before), Hides timeout y x (sightingsOf x.cid after)

instance (timeout : Nat) (before : List Sighting) (x : Sighting) (after : List Sighting) :
    Decidable (Overshadowed timeout before x after) :=
  inferInstanceAs (Decidable (∃ y ∈ holder? timeout (sightingsOf x.cid before),
    Hides timeout y x (sightingsOf x.cid after)))

/-- A packet is not overshadowed if its source had sent nothing higher for as long as the timeout. -/
theorem not_overshadowed_of_highest
    (highest : ∀ y ∈ before, y.cid = x.cid → x.time ≤ y.time + timeout → y.priority ≤ x.priority) :
    ¬ Overshadowed timeout before x after := by
  rintro ⟨y, hy, h⟩
  obtain ⟨hmem, hcid⟩ := List.mem_filter.1 (mem_of_holder? hy)
  exact UInt8.not_lt.2 (highest y hmem (of_decide_eq_true hcid) h.held) h.higher

/-- Packets that come no earlier than `x` and no more than the timeout after it. -/
def Follow (timeout : Nat) (x : Sighting) (ws : List Sighting) : Prop :=
  ∀ w ∈ ws, x.time ≤ w.time ∧ w.time ≤ x.time + timeout

/-- Once the credit is as high as `x` and as late, nothing that follows `x` lowers it below. -/
theorem kept_foldl (hle : x.priority ≤ y.priority) (hy : x.time ≤ y.time)
    (follow : Follow timeout x ws) :
    x.priority ≤ (ws.foldl (takeOver timeout) y).priority := by
  induction ws generalizing y with
  | nil => exact hle
  | cons w ws ih =>
    obtain ⟨⟨hafter, hnear⟩, hrest⟩ := List.forall_mem_cons.1 follow
    rw [List.foldl_cons]
    rcases takeOver_cases timeout y w with ⟨htakes, htake⟩ | ⟨-, -, htake⟩
    · rw [htake]
      refine ih (htakes.elim (UInt8.le_trans hle) fun hlapsed => ?_) hafter hrest
      omega
    · rw [htake]
      exact ih hle hy hrest

/-- Once the credit is below `x`, it stays there for as long as what follows `x` is below it. -/
theorem lower_foldl_iff (hlower : y.priority < x.priority) (follow : Follow timeout x ws) :
    (ws.foldl (takeOver timeout) y).priority < x.priority ↔ ∀ w ∈ ws, w.priority < x.priority := by
  induction ws generalizing y with
  | nil => exact iff_of_true hlower nofun
  | cons w ws ih =>
    obtain ⟨⟨hafter, -⟩, hrest⟩ := List.forall_mem_cons.1 follow
    rw [List.foldl_cons, List.forall_mem_cons]
    by_cases hw : w.priority < x.priority
    · have hnext : (takeOver timeout y w).priority < x.priority := by
        rcases takeOver_cases timeout y w with ⟨-, htake⟩ | ⟨-, -, htake⟩
        · rwa [htake]
        · rwa [htake]
      rw [ih hnext hrest]
      exact (and_iff_right hw).symm
    · have hge : x.priority ≤ w.priority := UInt8.not_lt.1 hw
      have htake : takeOver timeout y w = w :=
        if_pos (.inl (UInt8.le_of_lt (UInt8.lt_of_lt_of_le hlower hge)))
      rw [htake]
      exact iff_of_false (UInt8.not_lt.2 (kept_foldl hge hafter hrest)) fun h => hw h.1

/-- A packet that finds a higher one with the credit is hidden by it exactly if the credit ends up
below. -/
theorem priority_lt_iff_hides (ordered : ws.Pairwise (fun a b => a.time ≤ b.time))
    (follow : Follow timeout x ws) (higher : x.priority < y.priority)
    (held : x.time ≤ y.time + timeout) :
    (ws.foldl (takeOver timeout) y).priority < x.priority ↔ Hides timeout y x ws := by
  induction ws with
  | nil =>
    refine iff_of_false (UInt8.not_lt.2 (UInt8.le_of_lt higher)) fun h => ?_
    obtain ⟨w, hw, -⟩ := h.ranOut
    cases hw
  | cons w ws ih =>
    obtain ⟨⟨hafter, -⟩, hrest⟩ := List.forall_mem_cons.1 follow
    obtain ⟨hlater, hsorted⟩ := List.pairwise_cons.1 ordered
    rw [List.foldl_cons]
    by_cases hlapsed : y.time + timeout < w.time
    · -- The credit has run out: `w` takes it, and so much the more it is run out for what is left.
      have htake : takeOver timeout y w = w := if_pos (.inr hlapsed)
      have hall : ∀ v ∈ w :: ws, y.time + timeout < v.time := by
        rw [List.forall_mem_cons]
        exact ⟨hlapsed, fun v hv => Nat.lt_of_lt_of_le hlapsed (hlater v hv)⟩
      have hhides : Hides timeout y x (w :: ws) ↔ ∀ v ∈ w :: ws, v.priority < x.priority :=
        ⟨fun h v hv => h.lower v hv (hall v hv), fun h => ⟨higher, held,
          fun v hv hle => absurd (hall v hv) (Nat.not_lt.2 hle),
          ⟨w, List.mem_cons_self, hlapsed⟩, fun v hv _ => h v hv⟩⟩
      rw [htake, hhides, List.forall_mem_cons]
      by_cases hw : w.priority < x.priority
      · rw [lower_foldl_iff hw hrest]
        exact (and_iff_right hw).symm
      · exact iff_of_false (UInt8.not_lt.2 (kept_foldl (UInt8.not_lt.1 hw) hafter hrest))
          fun h => hw h.1
    · have hheld : w.time ≤ y.time + timeout := Nat.not_lt.1 hlapsed
      by_cases hw : w.priority < y.priority
      · have htake : takeOver timeout y w = y :=
          if_neg (not_or.2 ⟨UInt8.not_le.2 hw, hlapsed⟩)
        rw [htake, ih hsorted hrest, hides_iff, hides_iff]
        simp only [List.mem_cons, forall_eq_or_imp, exists_eq_or_imp, hheld, hw, hlapsed,
          true_implies, false_implies, true_and, false_or]
      · -- The credit is renewed, by something higher than `x`.
        have hge : y.priority ≤ w.priority := UInt8.not_lt.1 hw
        have htake : takeOver timeout y w = w := if_pos (.inl hge)
        rw [htake]
        exact iff_of_false
          (UInt8.not_lt.2 (kept_foldl (UInt8.le_trans (UInt8.le_of_lt higher) hge) hafter hrest))
          fun h => hw (h.notRenewed w List.mem_cons_self hheld)

/-- Within the timeout after a packet of a source, what has the credit of the source is below it
exactly if it is hidden by what had the credit before it. -/
theorem exists_holder?_around (sent : List Sighting)
    (ordered : ws.Pairwise (fun a b => a.time ≤ b.time)) (follow : Follow timeout x ws) :
    ∃ z, holder? timeout (sent ++ x :: ws) = some z ∧
      (z.priority < x.priority ↔ ∃ y ∈ holder? timeout sent, Hides timeout y x ws) := by
  have hkept : ¬ (ws.foldl (takeOver timeout) x).priority < x.priority :=
    UInt8.not_lt.2 (kept_foldl (UInt8.le_refl _) (Nat.le_refl _) follow)
  cases hh : holder? timeout sent with
  | none =>
    rw [holder?_eq_none_iff.1 hh]
    exact ⟨_, rfl, iff_of_false hkept nofun⟩
  | some y =>
    refine ⟨_, holder?_append hh _, ?_⟩
    simp only [Option.mem_def, Option.some.injEq, exists_eq_left', List.foldl_cons]
    rcases takeOver_cases timeout y x with ⟨htakes, htake⟩ | ⟨higher, held, htake⟩
    · rw [htake]
      refine iff_of_false hkept fun h => ?_
      rcases htakes with hle | hlapsed
      · exact UInt8.not_lt.2 hle h.higher
      · exact Nat.not_lt.2 h.held hlapsed
    · rw [htake]
      exact priority_lt_iff_hides ordered follow higher held

/-- What comes before a packet is no later than it, and what comes after it no earlier. -/
theorem time_around (ordered : (before ++ x :: after).Pairwise (fun a b => a.time ≤ b.time)) :
    (∀ y ∈ before, y.time ≤ x.time) ∧ ∀ y ∈ after, x.time ≤ y.time := by
  obtain ⟨-, htail, hacross⟩ := List.pairwise_append.1 ordered
  exact ⟨fun y hy => hacross y hy x List.mem_cons_self, (List.pairwise_cons.1 htail).1⟩

/-- While the timeout has not passed since a packet, its source has a standing. -/
theorem find?_isSome_of_recent
    (ordered : (before ++ x :: after).Pairwise (fun a b => a.time ≤ b.time))
    (recent : ∀ y ∈ after, y.time ≤ x.time + timeout) :
    ((SourceTable.hearAll timeout (before ++ x :: after)).find? x.cid).isSome := by
  cases hs : (SourceTable.hearAll timeout (before ++ x :: after)).find? x.cid with
  | some s => rfl
  | none =>
    obtain ⟨y, hy, hle⟩ := exists_lastSighting? (x := x) ordered (by simp)
    obtain ⟨z, hz, hlt⟩ := (tracks_hearAll timeout _).forgotten hs hy
    have hrecent : z.time ≤ x.time + timeout := by
      rcases List.mem_append.1 hz with hb | ha
      · have := (time_around ordered).1 z hb
        omega
      · rcases List.mem_cons.1 ha with rfl | ha
        · omega
        · exact recent z ha
    omega

/-- Within the timeout after a packet its source is credited with less than its priority exactly if the
packet is overshadowed. -/
theorem credit_lt_iff_overshadowed
    (ordered : (before ++ x :: after).Pairwise (fun a b => a.time ≤ b.time))
    (recent : ∀ y ∈ after, y.time ≤ x.time + timeout)
    (hs : (SourceTable.hearAll timeout (before ++ x :: after)).find? x.cid = some s) :
    s.credit < x.priority ↔ Overshadowed timeout before x after := by
  have hsplit : sightingsOf x.cid (before ++ x :: after) =
      sightingsOf x.cid before ++ x :: sightingsOf x.cid after := by
    simp [sightingsOf]
  have hsorted : (sightingsOf x.cid after).Pairwise (fun a b => a.time ≤ b.time) :=
    (List.pairwise_cons.1 (List.pairwise_append.1 ordered).2.1).2.filter _
  have follow : Follow timeout x (sightingsOf x.cid after) := by
    intro w hw
    have hmem := (List.mem_filter.1 hw).1
    exact ⟨(time_around ordered).2 w hmem, recent w hmem⟩
  obtain ⟨z, hz, hpriority, -⟩ := (backs_hearAll ordered hs).credited
  obtain ⟨z', hz', hiff⟩ := exists_holder?_around (sightingsOf x.cid before) hsorted follow
  obtain rfl : z' = z := by
    rw [hsplit, hz'] at hz
    exact Option.some.inj hz
  rw [← hpriority, hiff]
  rfl

/-- A source that does not win alone has a lower credit than the one that does. -/
theorem credit_lt_of_winners {t : SourceTable} {c d : Cid} {r : Standing} (h : t.winners = [c])
    (hne : d ≠ c) (hr : t.find? d = some r) : ∃ s, t.find? c = some s ∧ r.credit < s.credit := by
  have honly : ∀ e, Leads (fun e => (t.find? e).isSome) t e ↔ e = c := by
    intro e
    rw [leads_iff_mem_winners (fun _ => Iff.rfl), h, List.mem_singleton]
  exact credit_lt_of_only_leads honly hne (by simp [hr]) hr

/-- Within the timeout after a packet its source has a standing, and is credited with less than the
priority of the packet exactly if the packet is overshadowed. While it is not, whatever is accepted
of another source is from one with a higher credit than that priority. A packet with nothing higher
from its source in the timeout before it is never overshadowed. -/
theorem recent_priority_kept {timeout : Nat} {before after : List Sighting} {x : Sighting}
    (ordered : (before ++ x :: after).Pairwise (fun a b => a.time ≤ b.time))
    (recent : ∀ y ∈ after, y.time ≤ x.time + timeout) :
    (∃ s, (SourceTable.hearAll timeout (before ++ x :: after)).find? x.cid = some s ∧
      (x.priority ≤ s.credit ↔ ¬ Overshadowed timeout before x after)) ∧
    (¬ Overshadowed timeout before x after →
      ∀ (u : UniverseId) (start : Nat) (past : List Step) (step : Step) (p : Packet),
        sightings u (past ++ [step]) = before ++ x :: after → step.heardOn u = some p →
        p.cid ≠ x.cid →
        (((Arbiter.start u timeout start).after past).verdict step).accepts = true →
        ∃ s, ((Arbiter.start u timeout start).after (past ++ [step])).sources.find? p.cid =
            some s ∧ x.priority < s.credit) ∧
    ((∀ y ∈ before, y.cid = x.cid → x.time ≤ y.time + timeout → y.priority ≤ x.priority) →
      ¬ Overshadowed timeout before x after) := by
  obtain ⟨r, hr⟩ := Option.isSome_iff_exists.1 (find?_isSome_of_recent ordered recent)
  have hiff : x.priority ≤ r.credit ↔ ¬ Overshadowed timeout before x after := by
    rw [← credit_lt_iff_overshadowed ordered recent hr, UInt8.not_lt]
  refine ⟨⟨r, hr, hiff⟩, ?_, not_overshadowed_of_highest⟩
  intro hshown u start past step p hseen hheard hne haccepted
  obtain ⟨q, hq, hwinners, -⟩ :=
    (((Arbiter.start u timeout start).after past).verdict_by_number step).2.1 haccepted
  rw [Arbiter.after_universeId] at hq
  obtain rfl : q = p := Option.some.inj (hq.symm.trans hheard)
  have htable : ((Arbiter.start u timeout start).after (past ++ [step])).sources =
      SourceTable.hearAll timeout (before ++ x :: after) := by
    rw [Arbiter.after_sources, hseen]
  rw [Arbiter.after_append, Arbiter.after_cons, Arbiter.after_nil] at htable ⊢
  rw [htable] at hwinners ⊢
  obtain ⟨s, hs, hlt⟩ := credit_lt_of_winners hwinners (Ne.symm hne) hr
  exact ⟨s, hs, UInt8.lt_of_le_of_lt (hiff.2 hshown) hlt⟩

/-- A priority of 150 that is sent after 200 is kept when 50 comes exactly the timeout after the 200,
and when the 200 had run out before the 150 came; it is lost when the 200 runs out in between. -/
theorem recent_priority_kept_to_the_timeout :
    (∃ s, (SourceTable.hearAll 2500
        ([⟨Cid.zero, 200, 0⟩] ++ ⟨Cid.zero, 150, 1000⟩ :: [⟨Cid.zero, 50, 2500⟩])).find? Cid.zero =
        some s ∧ 150 ≤ s.credit) ∧
    (∃ s, (SourceTable.hearAll 2500
        ([⟨Cid.zero, 200, 0⟩] ++ ⟨Cid.zero, 150, 10000⟩ :: [⟨Cid.zero, 50, 10100⟩])).find?
        Cid.zero = some s ∧ 150 ≤ s.credit) ∧
    ∃ s, (SourceTable.hearAll 2500
        ([⟨Cid.zero, 200, 0⟩] ++ ⟨Cid.zero, 150, 1000⟩ :: [⟨Cid.zero, 50, 2501⟩])).find? Cid.zero =
        some s ∧ s.credit < 150 := by
  let high : Sighting := ⟨Cid.zero, 200, 0⟩
  let middle (now : Nat) : Sighting := ⟨Cid.zero, 150, now⟩
  let low (now : Nat) : Sighting := ⟨Cid.zero, 50, now⟩
  obtain ⟨s₁, hs₁, hat⟩ :=
    (@recent_priority_kept 2500 [high] [low 2500] (middle 1000) (by decide) (by decide)).1
  obtain ⟨s₂, hs₂, hlater⟩ :=
    (@recent_priority_kept 2500 [high] [low 10100] (middle 10000) (by decide) (by decide)).1
  obtain ⟨s₃, hs₃, hpast⟩ :=
    (@recent_priority_kept 2500 [high] [low 2501] (middle 1000) (by decide) (by decide)).1
  exact ⟨⟨s₁, hs₁, hat.2 (by decide)⟩, ⟨s₂, hs₂, hlater.2 (by decide)⟩,
    ⟨s₃, hs₃, UInt8.not_le.1 fun hle => hpast.1 hle (by decide)⟩⟩

/-- The credit of a source can fall below a priority that it sent within the timeout: 150 is sent
while 200 is credited, and 50 takes the place of the 200 when that runs out. -/
theorem credit_below_recent_priority :
    ¬ ∀ (timeout : Nat) (seen : List Sighting) (last : Sighting),
      (seen ++ [last]).Pairwise (fun a b => a.time ≤ b.time) →
      ∀ x ∈ seen ++ [last], x.cid = last.cid → last.time - x.time ≤ timeout →
        ∃ s, (SourceTable.hearAll timeout (seen ++ [last])).find? last.cid = some s ∧
          x.priority ≤ s.credit := by
  intro h
  let seen : List Sighting := [⟨Cid.zero, 200, 0⟩, ⟨Cid.zero, 150, 1000⟩]
  let last : Sighting := ⟨Cid.zero, 50, 2501⟩
  obtain ⟨s, hs, hle⟩ := h 2500 seen last (by decide) ⟨Cid.zero, 150, 1000⟩ (by decide) rfl
    (by decide)
  have hfell : (SourceTable.hearAll 2500 (seen ++ [last])).find? last.cid =
      some ⟨2501, 2501, 50⟩ := by decide +kernel
  rw [hfell, Option.some.injEq] at hs
  rw [← hs] at hle
  exact absurd hle (by decide)

end StreamingAcn.Arbitration
