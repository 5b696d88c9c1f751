/-
StreamingAcn.Proofs.Monitor.Starting — which plans a receiver starts with.

A plan is looked at twice, by the monitor before it is launched and by the receiver that is to carry
it out. Both look at the timeout and at the numbers of the universes, but only the receiver looks at
the endpoint: groups are joined from addresses of four octets. So of the plans that are launched,
the receiver accepts those that join no groups or have such an address; the others are refused for
their endpoint and for nothing else. With the settings of an accepted plan a receiver on a source
that it is given starts, and all universes of the plan become active. Such a receiver binds no socket
and joins no groups, so nothing is said here of what the network can refuse.

Definition: `Plan.CanJoin`, a plan whose groups can be joined from its endpoint.

Main statement: `launched_plan_starts_iff`.
-/
import StreamingAcn.Main
import StreamingAcn.Proofs.Monitor.Layers
import StreamingAcn.Proofs.Roster.Lifecycle
import Mathlib.Data.Finset.Lattice.Lemmas

namespace StreamingAcn.Monitor

open Roster (Agrees)

/-- Where groups are joined, the endpoint has an address of four octets. -/
def Plan.CanJoin (p : Plan) : Prop := p.multicast = true → p.endpoint.isV4 = true

variable {p : Plan} {u : UniverseId} {universes : Finset UniverseId}

/-! ## The settings of a plan -/

theorem fault?_of_launch {f : Flags} {contentOf : String → PlanFile.Content}
    (h : f.launch contentOf = .ok p) : p.fault? = none := by
  unfold Flags.launch at h
  split at h
  · cases h
  · dsimp only at h
    split at h
    · cases h
    · next hnone =>
      cases h
      exact hnone

/-- With a timeout, settings have a fault only in their endpoint. -/
theorem fault?_settings (h : p.CanRun) : p.settings.fault? =
    if p.multicast = true ∧ p.endpoint.isV4 = false then some (.multicastEndpoint p.endpoint)
    else none := by
  have htimeout : p.settings.timeout ≠ 0 := Nat.mul_ne_zero h.timeout (by decide)
  rw [Settings.fault?, if_neg htimeout]
  simp only [Plan.settings, Bool.not_eq_true']

theorem check_of_canJoin (h : p.CanRun) (hjoin : p.CanJoin) : p.settings.check = .ok () := by
  have hfault : p.settings.fault? = none := by
    rw [fault?_settings h, if_neg]
    rintro ⟨hmulticast, hv6⟩
    cases hv6.symm.trans (hjoin hmulticast)
  rw [Settings.check, hfault]

theorem check_of_not_canJoin (h : p.CanRun) (hjoin : ¬ p.CanJoin) : p.settings.check =
    .error (.configuration (Settings.Fault.multicastEndpoint p.endpoint).message) := by
  have hfault : p.settings.fault? = some (.multicastEndpoint p.endpoint) := by
    rw [fault?_settings h, if_pos]
    simpa [Plan.CanJoin] using hjoin
  rw [Settings.check, hfault]

/-! ## Activating the universes of a plan -/

/-- On an open roster, a request to activate a universe that can carry data fails only with the
group that is joined for it. -/
theorem join_of_activation_error {r : Roster} {join : Except ReceiverError Unit}
    {e : ReceiverError} (hopen : r.isClosed = false) (hu : 1 ≤ u.toNat ∧ u.toNat ≤ 63999)
    (h : (r.activation u join).result = .error e) : join = .error e := by
  have hcheck : UniverseId.check u = .ok () := by
    rw [UniverseId.check, if_pos (UniverseId.isData_iff.2 hu)]
  simp only [Roster.activation_eq, Roster.obstacle?, hcheck, hopen, Bool.false_eq_true, if_false] at h
  split at h
  · cases h
  · cases join with
    | error _ =>
      cases h
      rfl
    | ok _ => cases h

/-- A request to activate a universe that can carry data is granted on an open roster, whether the
universe was active before or not. -/
theorem activate_in_range {r : Roster} (h : Agrees r (.opened universes))
    (hu : 1 ≤ u.toNat ∧ u.toNat ≤ 63999) (now : Nat) :
    (∃ isNew, (r.activation u (.ok ())).result = .ok isNew) ∧
      Agrees (r.activate u now (.ok ())) (.opened (insert u universes)) := by
  have hrange : ¬ (u.toNat < 1 ∨ 63999 < u.toNat) := by omega
  obtain ⟨hreply, hafter⟩ := h.activate u now (.ok ())
  by_cases hmem : u ∈ universes
  · simp only [Register.activate, if_neg hrange, if_pos hmem] at hreply hafter
    injection hreply with hresult
    exact ⟨⟨false, hresult⟩, by rwa [Finset.insert_eq_of_mem hmem]⟩
  · simp only [Register.activate, if_neg hrange, if_neg hmem] at hreply hafter
    injection hreply with hresult
    exact ⟨⟨true, hresult⟩, hafter⟩

theorem activateAll_spec (now : Nat) {us : List UniverseId}
    (hus : ∀ u ∈ us, 1 ≤ u.toNat ∧ u.toNat ≤ 63999) {r : Receiver}
    (h : Agrees r.roster (.opened universes)) :
    ∃ ready, activateAll now r us = .ok ready ∧
      Agrees ready.roster (.opened (universes ∪ us.toFinset)) := by
  induction us generalizing r universes with
  | nil => exact ⟨r, rfl, by rwa [List.toFinset_nil, Finset.union_empty]⟩
  | cons u rest ih =>
    obtain ⟨⟨isNew, hresult⟩, hactive⟩ := activate_in_range h (hus u List.mem_cons_self) now
    obtain ⟨ready, hready, hagrees⟩ :=
      ih (fun v hv => hus v (List.mem_cons_of_mem _ hv)) (r := r.activate u now) hactive
    refine ⟨ready, ?_, ?_⟩
    · have hresult' : (r.activation u).result = .ok isNew := hresult
      rw [activateAll, hresult']
      exact hready
    · rwa [List.toFinset_cons, ← Finset.insert_union_comm]

/-- A plan that can be carried out, and whose groups can be joined, is started with all its
universes. -/
theorem starts_of_canJoin (h : p.CanRun) (hjoin : p.CanJoin) (now : Nat) :
    ∃ started ready, Receiver.start p.settings = .ok started ∧
      activateAll now started p.universes = .ok ready ∧
      ∀ u, ready.roster.isActive u = true ↔ u ∈ p.universes := by
  have hstart : Receiver.start p.settings =
      .ok ⟨p.settings, Roster.start p.settings.timeout p.settings.sinkCapacity, true⟩ := by
    rw [Receiver.start, check_of_canJoin h hjoin]
  obtain ⟨ready, hready, hagrees⟩ := activateAll_spec now h.inRange
    (r := ⟨p.settings, Roster.start p.settings.timeout p.settings.sinkCapacity, true⟩)
    (Roster.agrees_start _ _)
  refine ⟨_, ready, hstart, hready, fun u => ?_⟩
  rw [hagrees.isActive u, Register.universes, Finset.empty_union, List.mem_toFinset]

/-- **The settings of a launched plan are accepted unless its groups cannot be joined from its
endpoint.** Then they are refused, with a message that says so. Where they are accepted, a receiver
on a given source, which binds no socket and joins no groups, starts and all universes of the plan
become active. No universe of the plan is ever refused by an open roster for its number, whatever
joining its group gives. -/
theorem launched_plan_starts_iff (p : Plan)
    (h : p.fault? = none ∨ ∃ f contentOf, Flags.launch f contentOf = .ok p) :
    (p.settings.check = .ok () ↔ p.CanJoin) ∧
    (¬ p.CanJoin → p.settings.check = .error (.configuration
      s!"multicast reception requires an IPv4 bind address, got {p.endpoint.text}")) ∧
    (p.CanJoin → ∀ now, ∃ started ready, Receiver.start p.settings = .ok started ∧
      activateAll now started p.universes = .ok ready ∧
      ∀ u, ready.roster.isActive u = true ↔ u ∈ p.universes) ∧
    ∀ (r : Roster) (u : UniverseId) (join : Except ReceiverError Unit) (e : ReceiverError),
      r.isClosed = false → u ∈ p.universes → (r.activation u join).result = .error e →
        join = .error e := by
  have hrun : p.CanRun := by
    rcases h with hfault | ⟨f, contentOf, hlaunch⟩
    · exact fault?_eq_none_iff.1 hfault
    · exact fault?_eq_none_iff.1 (fault?_of_launch hlaunch)
  refine ⟨⟨fun hok => ?_, check_of_canJoin hrun⟩, check_of_not_canJoin hrun,
    starts_of_canJoin hrun, fun r u join e hopen hu => join_of_activation_error hopen
      (hrun.inRange u hu)⟩
  by_contra hjoin
  cases hok.symm.trans (check_of_not_canJoin hrun hjoin)

/-- A plan that joins groups from an endpoint whose address has eight groups. -/
def loopbackPlan : Plan where
  endpoint := .v6 ⟨[0, 0, 0, 0, 0, 0, 0, 1], rfl⟩ 0 5568
  interface := none
  multicast := true
  universes := [1]
  timeoutMs := 2500
  sinkCapacity := 64
  format := .text

/-- The plan starts once it joins no groups. -/
theorem launched_plan_starts_iff_without_groups :
    { loopbackPlan with multicast := false }.fault? = none ∧ ∃ started ready,
      Receiver.start { loopbackPlan with multicast := false }.settings = .ok started ∧
      activateAll 0 started [1] = .ok ready ∧
      ∀ u, ready.roster.isActive u = true ↔ u ∈ ([1] : List UniverseId) :=
  ⟨by decide, (launched_plan_starts_iff { loopbackPlan with multicast := false }
    (.inl (by decide))).2.2.1 nofun 0⟩

/-- As it is, the monitor launches it and the receiver refuses it. -/
theorem launched_plan_refused : ∃ f,
    Flags.parse ["--bind", "[::1]:5568", "-u", "1"] = .ok f ∧
      f.launch (fun _ => .missing) = .ok loopbackPlan ∧ loopbackPlan.fault? = none ∧
      loopbackPlan.settings.check = .error (.configuration
        "multicast reception requires an IPv4 bind address, got [::1]:5568") := by
  have hfault : loopbackPlan.fault? = none := by decide
  have hjoin : ¬ loopbackPlan.CanJoin := fun h => Bool.noConfusion (h rfl)
  have hmessage : (Settings.Fault.multicastEndpoint loopbackPlan.endpoint).message =
      "multicast reception requires an IPv4 bind address, got [::1]:5568" := by decide +kernel
  have hrefused := check_of_not_canJoin (fault?_eq_none_iff.1 hfault) hjoin
  exact ⟨{ endpoint := some loopbackPlan.endpoint, universes := [1] }, rfl, rfl, hfault,
    hmessage ▸ hrefused⟩

end StreamingAcn.Monitor
